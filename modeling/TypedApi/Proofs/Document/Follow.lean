import TypedApi.Proofs.Document.Location
import TypedApi.Proofs.Document.Walk
/-!
What following a reference comes to.

`Trail` says which references lead from a value to another one, without a bound and
without a memory of what has been met. Following a value ends at the one value of
its trails that is no reference. If there is none, the trail meets a reference
again, or it meets one that has no value, or a reference that is no text, and the
failure tells which of the three it is. The ways to end exclude each other because
a value has one reference at most.
-/

set_option autoImplicit false

namespace TypedApi.Document

variable {document value last last' x : Document} {path : String} {paths paths' seen : List String}
  {result : Except Failure (List Link)}

/-- The references that lead from a value to another one. -/
inductive Trail (document : Document) : Document → List String → Document → Prop
  | here (value : Document) : Trail document value [] value
  | step (value target last : Document) (path : String) (rest : List String) :
    value.find? "$ref" = some (.text path) → document.resolve path = .ok target →
    Trail document target rest last → Trail document value (path :: rest) last

/-- A value from which no reference leads on. -/
def IsLast (document value : Document) : Prop :=
  ∀ path x, value.find? "$ref" = some (.text path) → document.resolve path ≠ .ok x

theorem isLast_of_none (h : value.find? "$ref" = none) : IsLast document value := by
  intro path x hpath
  rw [h] at hpath
  cases hpath

theorem isLast_of_error {e : Failure} (h : value.find? "$ref" = some (.text path))
    (he : document.resolve path = .error e) : IsLast document value := by
  intro other x hother hx
  cases h.symm.trans hother
  rw [he] at hx
  cases hx

theorem isLast_of_text? {reference : Document} (h : value.find? "$ref" = some reference)
    (hreference : reference.text? = none) : IsLast document value := by
  intro path x hpath _
  cases h.symm.trans hpath
  cases hreference

/-- Trails of a value that go as far as they can come to the same value. -/
theorem Trail.unique (h : Trail document value paths last) (h' : Trail document value paths' last')
    (hlast : IsLast document last) (hlast' : IsLast document last') : last = last' := by
  induction h generalizing paths' with
  | here value =>
    cases h' with
    | here => rfl
    | step _ target _ path _ hpath hresolve _ => exact absurd hresolve (hlast path target hpath)
  | step value target last path rest hpath hresolve _ ih =>
    cases h' with
    | here => exact absurd hresolve (hlast' path target hpath)
    | step _ target' _ path' rest' hpath' hresolve' hrest' =>
      cases hpath.symm.trans hpath'
      cases hresolve.symm.trans hresolve'
      exact ih hrest' hlast

/-! ## The ways to end -/

/-- A trail that has come to the value of a reference that it has been through. -/
def Revisits (document value : Document) : Prop :=
  ∃ paths last path, Trail document value paths last ∧
    last.find? "$ref" = some (.text path) ∧ path ∈ paths

/-- A trail that has come to a reference without a value. -/
def Strands (document value : Document) (e : Failure) : Prop :=
  ∃ paths last path, Trail document value paths last ∧
    last.find? "$ref" = some (.text path) ∧ document.resolve path = .error e

/-- A trail that has come to a reference that is no text. -/
def Stumbles (document value : Document) : Prop :=
  ∃ paths last reference, Trail document value paths last ∧
    last.find? "$ref" = some reference ∧ reference.text? = none

/-- What a walk has gone through is a trail, and its result tells how the trail goes on. -/
theorem Walk.cases_trail (h : Walk document seen value result) :
    (∃ links, result = .ok links ∧
      Trail document value (links.map Link.reference)
        ((links.getLast?.map Link.target).getD value) ∧
      ((links.getLast?.map Link.target).getD value).find? "$ref" = none) ∨
    (∃ paths last path, Trail document value paths last ∧
      last.find? "$ref" = some (.text path) ∧ (path ∈ seen ∨ path ∈ paths) ∧
      result = fail (.source (.circular path))) ∨
    (∃ e, Strands document value e ∧ result = .error e) ∨
    (Stumbles document value ∧ result = .error .malformed) := by
  induction h with
  | done seen value hnone => exact .inl ⟨[], rfl, .here value, hnone⟩
  | circular seen value path hpath hmem =>
    exact .inr (.inl ⟨[], value, path, .here value, hpath, .inl hmem, rfl⟩)
  | stuck seen value path e hpath _ hresolve =>
    exact .inr (.inr (.inl ⟨e, ⟨[], value, path, .here value, hpath, hresolve⟩, rfl⟩))
  | malformed seen value reference hreference htext =>
    exact .inr (.inr (.inr ⟨⟨[], value, reference, .here value, hreference, htext⟩, rfl⟩))
  | step seen value target own rest hown _ hresolve _ ih =>
    -- in each case the trail from the target has the first reference put in front
    rcases ih with ⟨links, rfl, htrail, hnone⟩ | ⟨paths, last, path, htrail, hpath, hmem, rfl⟩ |
      ⟨e, ⟨paths, last, path, htrail, hpath, herror⟩, rfl⟩ |
      ⟨⟨paths, last, reference, htrail, hreference, htext⟩, rfl⟩
    · refine .inl ⟨⟨own, target⟩ :: links, rfl, ?_⟩
      have hlast : (((⟨own, target⟩ : Link) :: links).getLast?.map Link.target).getD value =
          (links.getLast?.map Link.target).getD target := by
        rw [List.getLast?_cons]
        cases links.getLast? <;> rfl
      rw [hlast]
      exact ⟨.step _ _ _ _ _ hown hresolve htrail, hnone⟩
    · refine .inr (.inl ⟨own :: paths, last, path, .step _ _ _ _ _ hown hresolve htrail, hpath,
        ?_, rfl⟩)
      rcases hmem with hmem | hmem
      · rcases List.mem_cons.mp hmem with rfl | hmem
        · exact .inr List.mem_cons_self
        · exact .inl hmem
      · exact .inr (List.mem_cons_of_mem _ hmem)
    · exact .inr (.inr (.inl ⟨e, ⟨_, last, path, .step _ _ _ _ _ hown hresolve htrail, hpath,
        herror⟩, rfl⟩))
    · exact .inr (.inr (.inr ⟨⟨_, last, reference, .step _ _ _ _ _ hown hresolve htrail,
        hreference, htext⟩, rfl⟩))

/-- A trail from one reference to another goes along references that refer to each other. -/
theorem Trail.refers {next : String} (h : Trail document value paths last)
    (hvalue : value.find? "$ref" = some (.text path))
    (hlast : last.find? "$ref" = some (.text next)) :
    Relation.ReflTransGen document.Refers path next := by
  induction h generalizing path with
  | here value =>
    cases hvalue.symm.trans hlast
    exact .refl
  | step value target last own rest hown hresolve hrest ih =>
    cases hvalue.symm.trans hown
    cases hrest with
    | here => exact .single ⟨target, hresolve, hlast⟩
    | step _ _ _ middle _ hmiddle _ _ =>
      exact .head ⟨target, hresolve, hmiddle⟩ (ih hmiddle hlast)

/-- A reference that a trail goes through refers, over one step or more, to the one at its end. -/
theorem Trail.refers_of_mem {next : String} (h : Trail document value paths last)
    (hlast : last.find? "$ref" = some (.text next)) (hmem : path ∈ paths) :
    ∃ first, value.find? "$ref" = some (.text first) ∧
      Relation.ReflTransGen document.Refers first path ∧
      Relation.TransGen document.Refers path next := by
  induction h with
  | here => cases hmem
  | step value target last own rest hown hresolve hrest ih =>
    refine ⟨own, hown, ?_⟩
    rcases List.mem_cons.mp hmem with rfl | hmem
    · refine ⟨.refl, ?_⟩
      cases hrest with
      | here => exact .single ⟨target, hresolve, hlast⟩
      | step _ _ _ middle _ hmiddle hnext hrest =>
        exact .head' ⟨target, hresolve, hmiddle⟩
          ((Trail.step _ _ _ _ _ hmiddle hnext hrest).refers hmiddle hlast)
    · obtain ⟨middle, hmiddle, hto, hon⟩ := ih hlast hmem
      exact ⟨.head ⟨target, hresolve, hmiddle⟩ hto, hon⟩

/-- A trail that meets a reference again is in a cycle. -/
theorem Revisits.cyclic (h : Revisits document value) :
    ∃ path, value.find? "$ref" = some (.text path) ∧ document.Cyclic path := by
  obtain ⟨paths, last, path, htrail, hlast, hmem⟩ := h
  obtain ⟨first, hfirst, hto, hon⟩ := htrail.refers_of_mem hlast hmem
  exact ⟨first, hfirst, path, hto, hon⟩

/-! ## What following comes to -/

/-- Following a value comes to what one of the ways to end says. -/
theorem follow_cases (document value : Document) :
    (∃ paths last, Trail document value paths last ∧ last.find? "$ref" = none ∧
      follow document value = .ok last) ∨
    (Revisits document value ∧ ∃ path, follow document value = fail (.source (.circular path))) ∨
    (∃ e, Strands document value e ∧ IsUnresolved e ∧ follow document value = .error e) ∨
    (Stumbles document value ∧ follow document value = .error .malformed) := by
  rw [follow]
  rcases (walk_chain document value).cases_trail with ⟨links, hchain, htrail, hnone⟩ |
    ⟨paths, last, path, htrail, hpath, hmem, hchain⟩ |
    ⟨e, hstrands, hchain⟩ | ⟨hstumbles, hchain⟩ <;> rw [hchain]
  · exact .inl ⟨_, _, htrail, hnone, rfl⟩
  · have hmem : path ∈ paths := hmem.resolve_left (by simp)
    exact .inr (.inl ⟨⟨paths, last, path, htrail, hpath, hmem⟩, path, rfl⟩)
  · have hfails := hstrands
    obtain ⟨_, _, path, _, _, herror⟩ := hfails
    exact .inr (.inr (.inl ⟨e, hstrands, failsOnly_resolve document path e herror, rfl⟩))
  · exact .inr (.inr (.inr ⟨hstumbles, rfl⟩))

/-- A trail that meets a reference again is reported as a circle. -/
theorem Revisits.follow_eq (h : Revisits document value) :
    ∃ path, follow document value = fail (.source (.circular path)) := by
  obtain ⟨path, hpath, hcyclic⟩ := h.cyclic
  obtain ⟨met, hmet⟩ := (walk_chain document value).circular_of_cyclic hpath hcyclic
  exact ⟨met, by rw [follow, hmet]; rfl⟩

/-- A trail that has gone as far as it can does not meet a reference again. -/
theorem not_revisits_of_isLast (h : Trail document value paths last) (hlast : IsLast document last) :
    ¬Revisits document value := by
  intro hrevisits
  obtain ⟨path, hpath, hcyclic⟩ := hrevisits.cyclic
  clear hrevisits
  induction h generalizing path with
  | here value =>
    obtain ⟨next, ⟨x, hx, _⟩, _⟩ := hcyclic.exists_next
    exact hlast path x hpath hx
  | step value target last own rest hown hresolve _ ih =>
    obtain ⟨next, ⟨x, hx, hnext⟩, hrest⟩ := hcyclic.exists_next
    cases hown.symm.trans hpath
    cases hresolve.symm.trans hx
    exact ih hlast next hnext hrest

theorem not_isUnresolved_malformed : ¬IsUnresolved .malformed := by
  rintro ⟨p, hp, _⟩
  cases hp

theorem not_isUnresolved_circular (path : String) :
    ¬IsUnresolved ⟨.source (.circular path), none⟩ := by
  rintro ⟨p, hp, hother⟩
  cases hp
  exact hother path rfl

/-- Where a trail has gone as far as it can, its last value tells what following comes to. -/
theorem Trail.follow_cases (h : Trail document value paths last) (hlast : IsLast document last) :
    (last.find? "$ref" = none ∧ follow document value = .ok last) ∨
    (∃ path e, last.find? "$ref" = some (.text path) ∧ document.resolve path = .error e ∧
      IsUnresolved e ∧ follow document value = .error e) ∨
    (∃ reference, last.find? "$ref" = some reference ∧ reference.text? = none ∧
      follow document value = .error .malformed) := by
  rcases Document.follow_cases document value with ⟨paths', last', htrail, hnone, hfollow⟩ |
    ⟨hrevisits, _⟩ | ⟨e, ⟨paths', last', path, htrail, hpath, herror⟩, hunresolved, hfollow⟩ |
    ⟨⟨paths', last', reference, htrail, hreference, htext⟩, hfollow⟩
  · cases h.unique htrail hlast (isLast_of_none hnone)
    exact .inl ⟨hnone, hfollow⟩
  · exact absurd hrevisits (not_revisits_of_isLast h hlast)
  · cases h.unique htrail hlast (isLast_of_error hpath herror)
    exact .inr (.inl ⟨path, e, hpath, herror, hunresolved, hfollow⟩)
  · cases h.unique htrail hlast (isLast_of_text? hreference htext)
    exact .inr (.inr ⟨reference, hreference, htext, hfollow⟩)

/-- Following a value answers with the last value of its trails, if that is no reference. -/
theorem follow_eq_ok_iff :
    follow document value = .ok last ↔
      ∃ paths, Trail document value paths last ∧ last.find? "$ref" = none := by
  constructor
  · intro hok
    rcases follow_cases document value with ⟨paths, last', htrail, hnone, hfollow⟩ |
      ⟨_, path, hfollow⟩ | ⟨e, _, _, hfollow⟩ | ⟨_, hfollow⟩ <;> cases hok.symm.trans hfollow
    exact ⟨paths, htrail, hnone⟩
  · rintro ⟨paths, htrail, hnone⟩
    rcases htrail.follow_cases (isLast_of_none hnone) with ⟨_, hfollow⟩ | ⟨path, _, hpath, _⟩ |
      ⟨reference, hreference, _⟩
    · exact hfollow
    · cases hnone.symm.trans hpath
    · cases hnone.symm.trans hreference

/-- Following a value reports a circle if its trails meet a reference again. -/
theorem follow_circular_iff :
    (∃ path, follow document value = fail (.source (.circular path))) ↔
      Revisits document value := by
  refine ⟨fun ⟨path, hfail⟩ => ?_, Revisits.follow_eq⟩
  rcases follow_cases document value with ⟨paths, last, _, _, hfollow⟩ |
    ⟨hrevisits, _⟩ | ⟨e, _, hunresolved, hfollow⟩ | ⟨_, hfollow⟩
  · cases hfail.symm.trans hfollow
  · exact hrevisits
  · cases hfail.symm.trans hfollow
    exact absurd hunresolved (not_isUnresolved_circular path)
  · cases hfail.symm.trans hfollow

/-- Following a value fails with the failure of the reference without a value that its trails come
to. -/
theorem follow_unresolved_iff {e : Failure} :
    follow document value = .error e ∧ IsUnresolved e ↔ Strands document value e := by
  constructor
  · rintro ⟨hfail, hunresolved⟩
    rcases follow_cases document value with ⟨paths, last, _, _, hfollow⟩ |
      ⟨_, path, hfollow⟩ | ⟨e', hstrands, _, hfollow⟩ | ⟨_, hfollow⟩ <;>
      cases hfail.symm.trans hfollow
    · exact absurd hunresolved (not_isUnresolved_circular path)
    · exact hstrands
    · exact absurd hunresolved not_isUnresolved_malformed
  · rintro ⟨paths, last, path, htrail, hpath, herror⟩
    rcases htrail.follow_cases (isLast_of_error hpath herror) with ⟨hnone, _⟩ |
      ⟨path', e', hpath', herror', hunresolved, hfollow⟩ | ⟨reference, hreference, htext, _⟩
    · cases hnone.symm.trans hpath
    · cases hpath.symm.trans hpath'
      cases herror.symm.trans herror'
      exact ⟨hfollow, hunresolved⟩
    · cases hpath.symm.trans hreference
      cases htext

/-- Following a value fails over a malformed document if its trails come to a reference that is no
text. -/
theorem follow_malformed_iff :
    follow document value = .error .malformed ↔ Stumbles document value := by
  constructor
  · intro hfail
    rcases follow_cases document value with ⟨paths, last, _, _, hfollow⟩ |
      ⟨_, path, hfollow⟩ | ⟨e, _, hunresolved, hfollow⟩ | ⟨hstumbles, _⟩
    · cases hfail.symm.trans hfollow
    · cases hfail.symm.trans hfollow
    · cases hfail.symm.trans hfollow
      exact absurd hunresolved not_isUnresolved_malformed
    · exact hstumbles
  · rintro ⟨paths, last, reference, htrail, hreference, htext⟩
    rcases htrail.follow_cases (isLast_of_text? hreference htext) with ⟨hnone, _⟩ |
      ⟨path, _, hpath, _⟩ | ⟨_, _, _, hfollow⟩
    · cases hnone.symm.trans hreference
    · cases hpath.symm.trans hreference
      cases htext
    · exact hfollow

/-- **Following a value always comes to an end**: at the value that is no reference and that a chain
of references leads to; with a circle if the chain meets a reference again, and only then; with
the failure of a reference that has no value if the chain meets one, and only then. Over a
reference that is no text it fails as over any malformed document, and there is no other end. -/
theorem follow_decided (document value : Document) :
    (∀ last, follow document value = .ok last ↔
      ∃ paths, Trail document value paths last ∧ last.find? "$ref" = none) ∧
    ((∃ path, follow document value = fail (.source (.circular path))) ↔
      Revisits document value) ∧
    (∀ e, follow document value = .error e ∧ IsUnresolved e ↔ Strands document value e) ∧
    (follow document value = .error .malformed ↔ Stumbles document value) ∧
    ((∃ last, follow document value = .ok last) ∨
      (∃ path, follow document value = fail (.source (.circular path))) ∨
      (∃ e, follow document value = .error e ∧ IsUnresolved e) ∨
      follow document value = .error .malformed) := by
  refine ⟨fun last => follow_eq_ok_iff, follow_circular_iff, fun e => follow_unresolved_iff,
    follow_malformed_iff, ?_⟩
  rcases follow_cases document value with ⟨_, last, _, _, hfollow⟩ | ⟨_, hcircular⟩ |
    ⟨e, _, hunresolved, hfollow⟩ | ⟨_, hfollow⟩
  · exact .inl ⟨last, hfollow⟩
  · exact .inr (.inl hcircular)
  · exact .inr (.inr (.inl ⟨e, hfollow, hunresolved⟩))
  · exact .inr (.inr (.inr hfollow))

end TypedApi.Document
