import TypedApi.Proofs.Build.Along
import TypedApi.Proofs.Build.Slack
/-!
Two runs of one conversion under different options.

`Parallel V x y R` says of two builds that from any two workbenches that are
alike up to the slack `V` they come to the same: both answer, and then the
workbenches are alike again and the answers stand in the relation `R`, or both
fail with the same failure. The slack names the failures with which one run may
end alone. Alike workbenches have models that look the same in the views of the
slack, so the names made, the items counted and the references handed out are
the same on both sides; the names are plain besides.
-/

set_option autoImplicit false

namespace TypedApi

open Build

variable {α β γ δ : Type} {m m' : Model}

/-! ## Readings -/

/-- A build that comes to the same on every workbench and leaves it alone, and whose answer is
as described. -/
structure Gives (x : Build α) (Q : α → Prop) : Prop where
  runs : ∃ r, (∀ w, exec x w = (r, w)) ∧ ∀ a, r = .ok a → Q a

namespace Gives

variable {Q : α → Prop}

theorem of_steady {x : Build α} (hx : Steady x) (h : ∀ a, Q a) : Gives x Q := by
  obtain ⟨r, hr⟩ := hx.runs
  exact ⟨r, hr, fun a _ => h a⟩

theorem pure {a : α} (h : Q a) : Gives (Pure.pure a) Q :=
  ⟨.ok a, fun _ => rfl, by rintro _ ⟨⟩; exact h⟩

theorem throw {e : Failure} : Gives (MonadExcept.throw e : Build α) Q :=
  ⟨.error e, fun _ => rfl, by simp⟩

theorem lift {e : Except Failure α} (h : ∀ a, e = .ok a → Q a) : Gives (Build.lift e) Q :=
  ⟨e, fun w => exec_lift e w, h⟩

theorem require {o : Option α} (h : ∀ a, o = some a → Q a) : Gives (Build.require o) Q := by
  refine lift fun a ha => h a ?_
  cases o with
  | none => cases ha
  | some b =>
    cases ha
    rfl

theorem field {d : Document} {key : String} {P : Document → Prop}
    (h : ∀ x, d.get? key = some x → P x) : Gives (Build.field d key) P :=
  require h

theorem bind {x : Build α} {f : α → Build β} {P : β → Prop} (hx : Gives x Q)
    (hf : ∀ a, Q a → Gives (f a) P) : Gives (x >>= f) P := by
  obtain ⟨e | a, h, hQ⟩ := hx.runs
  · exact ⟨.error e, fun w => exec_bind_error (h w), by simp⟩
  · obtain ⟨r, hr, hP⟩ := (hf a (hQ a rfl)).runs
    exact ⟨r, fun w => (exec_bind_ok (h w)).trans (hr w), hP⟩

theorem ite {c : Prop} [Decidable c] {x y : Build α} (hx : c → Gives x Q) (hy : ¬c → Gives y Q) :
    Gives (if c then x else y) Q := by
  split
  · exact hx ‹_›
  · exact hy ‹_›

theorem mapM {f : α → Build β} {P : β → Prop} {l : List α} (hf : ∀ a ∈ l, Gives (f a) P) :
    Gives (l.mapM f) fun bs => ∀ b ∈ bs, P b := by
  induction l with
  | nil => exact pure (by simp)
  | cons a l ih =>
    rw [List.mapM_cons]
    refine bind (hf a List.mem_cons_self) fun b hb => ?_
    refine bind (ih fun a' ha' => hf a' (List.mem_cons_of_mem _ ha')) fun bs hbs => pure ?_
    exact List.forall_mem_cons.mpr ⟨hb, hbs⟩

variable {V : Slack} {d : Document}

/-- What stands in a field may be read if the whole may. -/
theorem entry (hd : V.admits d) (key : String) : Gives (Build.field d key) V.admits :=
  field fun _ hx => Slack.admits_get? hd hx

theorem elements (hd : V.admits d) :
    Gives (Build.require d.elements?) fun items => ∀ x ∈ items, V.admits x :=
  require fun _ hitems _ hx => Slack.admits_element hd hitems hx

theorem values (hd : V.admits d) :
    Gives (Build.require d.fields?) fun fields => ∀ p ∈ fields, V.admits p.2 :=
  require fun _ hfields _ hp => Slack.admits_value hd hfields hp

end Gives

/-! ## The judgement -/

/-- What two runs come to is the same, up to the failures with which one of them may end alone. -/
inductive Parallel.Outcome (V : Slack) (R : α → β → Prop) :
    Except Failure α × Workbench → Except Failure β × Workbench → Prop
  | answer (a : α) (b : β) (w w' : Workbench) :
    Workbench.Alike V w w' → R a b → Parallel.Outcome V R (.ok a, w) (.ok b, w')
  | fail (e : Failure) (w w' : Workbench) : Parallel.Outcome V R (.error e, w) (.error e, w')
  | first (e : Failure) (w : Workbench) (q : Except Failure β × Workbench) :
    V.firstAlone e → Parallel.Outcome V R (.error e, w) q
  | second (e : Failure) (w' : Workbench) (p : Except Failure α × Workbench) :
    V.secondAlone e → Parallel.Outcome V R p (.error e, w')

/-- From workbenches that are alike, two builds come to the same. -/
structure Parallel (V : Slack) (x : Build α) (y : Build β) (R : α → β → Prop) : Prop where
  runs : ∀ w w', Workbench.Alike V w w' → Parallel.Outcome V R (exec x w) (exec y w')

variable {V : Slack}

namespace Parallel

/-! ## Rules -/

theorem weaken {x : Build α} {y : Build β} {R Q : α → β → Prop} (hx : Parallel V x y R)
    (h : ∀ a b, R a b → Q a b) : Parallel V x y Q := by
  constructor
  intro w w' hw
  have houtcome := hx.runs w w' hw
  generalize exec x w = p at houtcome ⊢
  generalize exec y w' = q at houtcome ⊢
  cases houtcome with
  | answer a b w w' hw hab => exact .answer a b w w' hw (h a b hab)
  | fail e w w' => exact .fail e w w'
  | first e w q he => exact .first e w q he
  | second e w' p he => exact .second e w' p he

theorem pure {a : α} {b : β} {R : α → β → Prop} (h : R a b) :
    Parallel V (Pure.pure a) (Pure.pure b) R :=
  ⟨fun w w' hw => .answer a b w w' hw h⟩

theorem throw {e : Failure} {R : α → β → Prop} :
    Parallel V (MonadExcept.throw e : Build α) (MonadExcept.throw e : Build β) R :=
  ⟨fun w w' _ => .fail e w w'⟩

theorem problem {p : Problem} {R : α → β → Prop} :
    Parallel V (Build.problem p : Build α) (Build.problem p : Build β) R :=
  throw

/-- Sequences: the second parts start from workbenches that are alike again. -/
theorem bind {x : Build α} {y : Build β} {f : α → Build γ} {g : β → Build δ} {R : α → β → Prop}
    {Q : γ → δ → Prop} (hx : Parallel V x y R) (hf : ∀ a b, R a b → Parallel V (f a) (g b) Q) :
    Parallel V (x >>= f) (y >>= g) Q := by
  constructor
  intro w w' hw
  have houtcome := hx.runs w w' hw
  rw [exec_bind, exec_bind]
  generalize exec x w = p at houtcome ⊢
  generalize exec y w' = q at houtcome ⊢
  cases houtcome with
  | answer a b w w' hw hab => exact (hf a b hab).runs w w' hw
  | fail e w w' => exact .fail e w w'
  | first e w q he => exact .first e w _ he
  | second e w' p he => exact .second e w' _ he

/-- Sequences whose first parts give the same answer. -/
theorem seq {x y : Build α} {f : α → Build γ} {g : α → Build δ} {Q : γ → δ → Prop}
    (hx : Parallel V x y Eq) (hf : ∀ a, Parallel V (f a) (g a) Q) :
    Parallel V (x >>= f) (y >>= g) Q :=
  bind hx fun a _ hab => hab ▸ hf a

/-- Sequences that begin with the same reading of the document. -/
theorem read {x : Build α} {P : α → Prop} {f : α → Build γ} {g : α → Build δ} {Q : γ → δ → Prop}
    (hx : Gives x P) (hf : ∀ a, P a → Parallel V (f a) (g a) Q) :
    Parallel V (x >>= f) (x >>= g) Q := by
  constructor
  intro w w' hw
  obtain ⟨e | a, h, hP⟩ := hx.runs
  · rw [exec_bind_error (h w), exec_bind_error (h w')]
    exact .fail e w w'
  · rw [exec_bind_ok (h w), exec_bind_ok (h w')]
    exact (hf a (hP a rfl)).runs w w' hw

/-- Sequences that begin with the same reading of the document, whatever it gives. -/
theorem skip {x : Build α} {f : α → Build γ} {g : α → Build δ} {Q : γ → δ → Prop} (hx : Steady x)
    (hf : ∀ a, Parallel V (f a) (g a) Q) : Parallel V (x >>= f) (x >>= g) Q :=
  read (P := fun _ => True) (.of_steady hx fun _ => trivial) fun a _ => hf a

/-- The same reading of the document on both sides. -/
theorem steady {x : Build α} {R : α → α → Prop} (hx : Steady x) (h : ∀ a, R a a) :
    Parallel V x x R := by
  have hbind := skip (V := V) (f := Pure.pure) (g := Pure.pure) hx fun a => pure (h a)
  rwa [bind_pure] at hbind

/-- Sequences that start by reading the model. -/
theorem model {f : Model → Build γ} {g : Model → Build δ} {Q : γ → δ → Prop}
    (hf : ∀ m m', Model.Alike V m m' → Parallel V (f m) (g m') Q) :
    Parallel V (Build.model >>= f) (Build.model >>= g) Q :=
  ⟨fun w w' hw => (hf w.model w'.model hw.models).runs w w' hw⟩

theorem ite {c : Prop} [Decidable c] {x x' : Build α} {y y' : Build β} {R : α → β → Prop}
    (hx : c → Parallel V x y R) (hy : ¬c → Parallel V x' y' R) :
    Parallel V (if c then x else x') (if c then y else y') R := by
  split
  · exact hx ‹_›
  · exact hy ‹_›

/-- A check that comes before the rest: where it fails, so do both sides. -/
theorem checked {c : Prop} [Decidable c] {p : Problem} {f : PUnit → Build γ} {g : PUnit → Build δ}
    {Q : γ → δ → Prop} (h : Parallel V (f ⟨⟩) (g ⟨⟩) Q) :
    Parallel V (if c then Build.problem p >>= f else f ⟨⟩)
      (if c then Build.problem p >>= g else g ⟨⟩) Q := by
  split
  · exact bind (R := fun _ _ => True) problem fun _ _ _ => h
  · exact h

/-- One build for each element of a list, with the same answers on both sides. -/
theorem mapM {f g : α → Build β} {P : β → Prop} {l : List α}
    (hf : ∀ a ∈ l, Parallel V (f a) (g a) fun b c => b = c ∧ P b) :
    Parallel V (l.mapM f) (l.mapM g) fun bs cs => bs = cs ∧ ∀ b ∈ bs, P b := by
  induction l with
  | nil => exact pure ⟨rfl, by simp⟩
  | cons a l ih =>
    rw [List.mapM_cons, List.mapM_cons]
    refine bind (hf a List.mem_cons_self) fun b c ⟨hbc, hb⟩ => ?_
    refine bind (ih fun a' ha' => hf a' (List.mem_cons_of_mem _ ha')) fun bs cs ⟨hbcs, hbs⟩ => ?_
    exact pure ⟨by rw [hbc, hbcs], List.forall_mem_cons.mpr ⟨hb, hbs⟩⟩

/-- One build for each element of a list, with the same answers on both sides of which no more is
said. -/
theorem mapM_eq {f g : α → Build β} {l : List α} (hf : ∀ a ∈ l, Parallel V (f a) (g a) Eq) :
    Parallel V (l.mapM f) (l.mapM g) Eq := by
  have hall := mapM (P := fun _ => True) fun a ha => (hf a ha).weaken fun b c h => ⟨h, trivial⟩
  exact hall.weaken fun bs cs h => h.1

/-- One build for each element of a list, for what they do alone. -/
theorem forM {f g : α → Build PUnit} {l : List α}
    (hf : ∀ a ∈ l, Parallel V (f a) (g a) fun _ _ => True) :
    Parallel V (l.forM f) (l.forM g) fun _ _ => True := by
  induction l with
  | nil => exact pure trivial
  | cons a l ih =>
    exact bind (hf a List.mem_cons_self) fun _ _ _ =>
      ih fun a' ha' => hf a' (List.mem_cons_of_mem _ ha')

end Parallel

/-! ## The primitives -/

namespace Parallel

theorem note {n n' : Note} : Parallel V (Build.note n) (Build.note n') fun _ _ => True :=
  ⟨fun _ _ hw => .answer _ _ _ _ ⟨hw.models, hw.sources⟩ trivial⟩

/-- **The same names are made on both sides.** -/
theorem deconflict {name : String} (h : Name.Proper name) :
    Parallel V (Build.deconflict name) (Build.deconflict name)
      fun a b => a = b ∧ Name.Proper a := by
  constructor
  intro w w' hw
  obtain ⟨notes, hfirst⟩ := exec_deconflict name w
  obtain ⟨notes', hsecond⟩ := exec_deconflict name w'
  rw [hfirst, hsecond, ← hw.models.items_eq]
  exact .answer _ _ _ _ ⟨hw.models, hw.sources⟩ ⟨rfl, h.deconflict _⟩

/-- **Adding items that look the same.** -/
theorem addItem {item item' : Item} {path : Option String} (hitem : Item.Alike V item item') :
    Parallel V (Build.addItem item path) (Build.addItem item' path) Eq := by
  constructor
  intro w w' hw
  have hfinal := hw.models.finalized_eq
  have hpaths := hw.models.paths_eq
  have hsize := hw.models.size_eq
  cases hopen : w.model.finalized with
  | true =>
    rw [exec_addItem_finalized hopen, exec_addItem_finalized (hfinal ▸ hopen)]
    exact .fail _ _ _
  | false =>
    have hopen' : w'.model.finalized = false := hfinal ▸ hopen
    by_cases hfree : ∀ p, path = some p → w.model.namedReferences.get? p = none
    · obtain ⟨notes, hfirst⟩ : ∃ notes,
          exec (Build.addItem item path) w = (_, { w with notes, model := _ }) :=
        exec_addItem hopen hfree
      obtain ⟨notes', hsecond⟩ : ∃ notes,
          exec (Build.addItem item' path) w' = (_, { w' with notes, model := _ }) :=
        exec_addItem hopen' (hpaths ▸ hfree)
      have hname : item.generatedName = item'.generatedName :=
        (congrArg Item.generatedName hitem.seen :)
      rw [hfirst, hsecond, ← hsize, ← hname, ← hw.models.items_eq]
      refine .answer _ _ _ _
        ⟨hw.models.withItem ⟨?_, hitem.plain.deconflict _⟩ path, hw.sources⟩ rfl
      generalize Name.deconflict item.generatedName w.model.items.keys = name
      exact congrArg (fun d : Item => { d with generatedName := name }) hitem.seen
    · push Not at hfree
      obtain ⟨p, rfl, htaken⟩ := hfree
      obtain ⟨old, hold⟩ := Option.ne_none_iff_exists'.mp htaken
      obtain ⟨notes, hfirst⟩ : ∃ notes,
          exec (Build.addItem item (some p)) w = (_, { w with notes }) :=
        exec_addItem_duplicate hopen hold
      obtain ⟨notes', hsecond⟩ : ∃ notes,
          exec (Build.addItem item' (some p)) w' = (_, { w' with notes }) :=
        exec_addItem_duplicate hopen' (hpaths ▸ hold)
      rw [hfirst, hsecond, ← hsize]
      exact .fail _ _ _

/-- A scalar that has no bounds of an integer. -/
theorem addScalar {specName generatedName : String} {path : Option String} {scalar : Scalar}
    (hname : Name.Proper generatedName) (hscalar : scalar.loosened = scalar) :
    Parallel V (Build.addScalar specName generatedName path scalar)
      (Build.addScalar specName generatedName path scalar) Eq :=
  addItem (.refl (by rw [Shape.loosened, hscalar]) hname)

theorem modifyItem {r : Ref} {c : Item → Item} (hc : Item.Steered V c) :
    Parallel V (Build.modifyItem r c) (Build.modifyItem r c) fun _ _ => True := by
  constructor
  intro w w' hw
  rw [Build.modifyItem, exec_bind_model, exec_bind_model, exec_bind, exec_bind, exec_lift,
    exec_lift, ← hw.models.indexOf_eq]
  cases w.model.indexOf r with
  | error e => exact .fail e w w'
  | ok index =>
    dsimp only
    rw [← hw.models.position?_eq]
    cases w.model.position? index with
    | none => exact .fail _ w w'
    | some i => exact .answer _ _ _ _ ⟨hw.models.withChange hc i, hw.sources⟩ trivial

/-- The name of an item is the same on both sides. -/
theorem nameOf {r : Ref} {f g : String → Build γ} {Q : γ → γ → Prop}
    (hf : ∀ name, Name.Proper name → Parallel V (f name) (g name) Q) :
    Parallel V (Build.model >>= fun m => Build.lift (m.nameOf r) >>= f)
      (Build.model >>= fun m => Build.lift (m.nameOf r) >>= g) Q := by
  refine model fun m m' hm => ?_
  rw [← hm.nameOf_eq]
  exact read (.lift fun name hname => hm.plain.of_nameOf hname) hf

theorem named {path : String} : Parallel V (Build.named path) (Build.named path) Eq := by
  refine model fun m m' hm => ?_
  have hnamed : m.named path = m'.named path := by
    rw [Model.named, Model.named, hm.paths_eq]
  rw [hnamed]
  exact steady (.lift _) fun _ => rfl

theorem namedBy {path : Document} : Parallel V (Build.namedBy path) (Build.namedBy path) Eq := by
  rw [Build.namedBy.eq_def]
  split
  · exact named
  · exact ite (fun _ => problem) fun _ => throw

theorem registerPath {path : String} {r : Ref} :
    Parallel V (Build.registerPath path r) (Build.registerPath path r) fun _ _ => True := by
  constructor
  intro w w' hw
  have hregistered := fun index => hw.models.withPath path index
  rw [exec_registerPath, exec_registerPath, ← hw.models.finalized_eq, ← hw.models.paths_eq]
  split
  · exact .fail _ w w'
  · cases r.index? with
    | none => exact .fail _ w w'
    | some index =>
      dsimp only
      cases w.model.namedReferences.get? path with
      | none => exact .answer _ _ _ _ ⟨hregistered index, hw.sources⟩ trivial
      | some old =>
        dsimp only
        split
        · exact .fail _ w w'
        · exact .answer _ _ _ _ ⟨hregistered index, hw.sources⟩ trivial

theorem cachedVariants {path : String} :
    Parallel V (Build.model >>= fun m => Build.lift (m.cachedVariants path))
      (Build.model >>= fun m => Build.lift (m.cachedVariants path)) Eq := by
  refine model fun m m' hm => ?_
  have hcached : m.cachedVariants path = m'.cachedVariants path := by
    rw [Model.cachedVariants, Model.cachedVariants, hm.shared_eq]
  rw [hcached]
  exact steady (.lift _) fun _ => rfl

theorem share {path : String} {variants : List Variant} :
    Parallel V (modifyModel fun m => m.withShared path variants)
      (modifyModel fun m => m.withShared path variants) fun _ _ => True :=
  ⟨fun _ _ hw => .answer _ _ _ _ ⟨hw.models.withShared path variants, hw.sources⟩ trivial⟩

theorem accept {r : Ref} :
    Parallel V (modifyModel fun m => m.withAccept r) (modifyModel fun m => m.withAccept r)
      fun _ _ => True :=
  ⟨fun _ _ hw => .answer _ _ _ _ ⟨hw.models.withAccept r, hw.sources⟩ trivial⟩

theorem operate {o o' : Operation} (ho : V.first.operation o = V.second.operation o')
    (hplain : ∀ p ∈ o.headers, Name.Plain p.2.generatedName) :
    Parallel V (modifyModel fun m => m.withOperation o) (modifyModel fun m => m.withOperation o')
      fun _ _ => True :=
  ⟨fun _ _ hw => .answer _ _ _ _ ⟨hw.models.withOperation ho hplain, hw.sources⟩ trivial⟩

end Parallel

/-! ## Documentation -/

namespace Build

/-- What can be read is read on every workbench, and over anything else a build breaks off. -/
theorem exec_optionalText (d : Document) :
    (d.isReadable = true ∧ ∃ o, ∀ w, exec (optionalText d) w = (.ok o, w)) ∨
    d.isReadable = false ∧ ∀ w, exec (optionalText d) w = (.error .malformed, w) := by
  rw [optionalText, Document.isReadable]
  cases hnull : d.isNull with
  | true => exact .inl ⟨rfl, none, fun _ => rfl⟩
  | false =>
    cases htext : d.asText? with
    | some s => exact .inl ⟨rfl, some s, fun _ => rfl⟩
    | none => exact .inr ⟨rfl, fun _ => rfl⟩

/-- A fetch leaves the fetcher that it has used, and at most a remark. -/
theorem exec_fetchDocs (fetcher : Docs.Fetcher) (url : String) (name : Option String)
    (w : Workbench) :
    ∃ notes, exec (fetchDocs fetcher url name) w =
      ((fetcher.fetch url name).1.result,
        { w with docs := some (fetcher.fetch url name).2, notes := notes }) := by
  rcases hfetch : fetcher.fetch url name with ⟨⟨result, hit⟩, fetcher'⟩
  simp only [fetchDocs, hfetch]
  cases hit <;> cases result <;> exact ⟨_, rfl⟩

/-- The documentation at an address, if there is one and it can be fetched, else what stands beside
it. -/
def documentationAt (url own : Document) (name : Option String) : Build Document := do
  match url.holds, (← get).docs with
  | true, some fetcher => return .text (← fetchDocs fetcher (← require url.text?) name)
  | _, _ => return own

theorem exec_documentationAt_beside {url own : Document} {name : Option String} {w : Workbench}
    (h : url.holds = false ∨ w.docs = none) :
    exec (documentationAt url own name) w = (.ok own, w) := by
  rw [documentationAt, exec_bind_get]
  rcases h with h | h
  · rw [h]
    rfl
  · rw [h]
    cases url.holds <;> rfl

theorem exec_documentationAt_fetch {url own : Document} {name : Option String} {w : Workbench}
    {fetcher : Docs.Fetcher} (hholds : url.holds = true) (hfetcher : w.docs = some fetcher) :
    exec (documentationAt url own name) w =
      exec (do return .text (← fetchDocs fetcher (← require url.text?) name)) w := by
  rw [documentationAt, exec_bind_get, hholds, hfetcher]

/-- What goes wrong in a fetch is a fetch that has failed. -/
theorem isFetch_of_fetch {fetcher : Docs.Fetcher} {url : String} {name : Option String}
    {e : Failure} (h : (fetcher.fetch url name).1.result = .error e) : e.IsFetch := by
  rw [Docs.Fetcher.fetch] at h
  split at h
  · cases h
    exact ⟨url, name, _, rfl⟩
  · split at h
    · cases h
    · rw [Docs.Fetcher.fetchAnew] at h
      split at h
      rename_i asked answer hanswer
      cases answer with
      | ok response => cases h
      | error problem =>
        cases h
        exact ⟨url, name, problem, rfl⟩

end Build

namespace Parallel

/-- Documentation is read on both sides. -/
theorem optionalText {a b : Document} (h : V.raw a b) :
    Parallel V (Build.optionalText a) (Build.optionalText b) V.said := by
  have hsame : a = b → Parallel V (Build.optionalText a) (Build.optionalText b) V.said := by
    rintro rfl
    exact steady (.optionalText _) fun _ _ => rfl
  cases V with
  | docs legible =>
    rcases h with h | rfl | ⟨ha, hb⟩
    · exact hsame h
    -- one that cannot be read ends its own run, and the other run is of no account
    · refine ⟨fun w w' hw => ?_⟩
      rcases exec_optionalText a with ⟨_, o, hfirst⟩ | ⟨_, hfirst⟩
      · rcases exec_optionalText b with ⟨_, o', hsecond⟩ | ⟨_, hsecond⟩
        · rw [hfirst, hsecond]
          exact .answer _ _ _ _ hw (by rintro ⟨⟩)
        · rw [hsecond]
          exact .second _ _ _ ⟨rfl, rfl⟩
      · rw [hfirst]
        exact .first _ _ _ (.inr ⟨rfl, rfl⟩)
    · refine ⟨fun w w' hw => ?_⟩
      rcases exec_optionalText a with ⟨_, o, hfirst⟩ | ⟨hnot, _⟩
      · rcases exec_optionalText b with ⟨_, o', hsecond⟩ | ⟨hnot, _⟩
        · rw [hfirst, hsecond]
          exact .answer _ _ _ _ hw (by rintro ⟨⟩)
        · rw [hb] at hnot
          cases hnot
      · rw [ha] at hnot
        cases hnot
  | _ => exact hsame h

/-- Documentation is read on both sides, null for none. -/
theorem textOrNull {a b : Document} (h : V.raw a b) :
    Parallel V (Build.textOrNull a) (Build.textOrNull b) V.said := by
  refine bind (optionalText h) fun o o' ho => ?_
  by_cases hdocs : V.first.docs = true
  · obtain rfl := ho hdocs
    exact steady (by cases o <;> exact .pure _) fun _ _ => rfl
  · -- what is not looked at need not be the same
    have hany : ∀ s t : Document, V.said s t := fun _ _ h => absurd h hdocs
    cases o <;> cases o' <;> exact pure (hany _ _)

/-- **Documentation comes from both sides**: the same from the same source, or what a fetch gives on
one side and what stands beside the address on the other. -/
theorem documentation {url own : Document} {name : Option String}
    (hlegible : V = .docs true → url.holds = true →
      url.text?.isSome = true ∧ own.isReadable = true) :
    Parallel V (documentationAt url own name) (documentationAt url own name) V.raw := by
  constructor
  intro w w' hw
  have hsources := hw.sources
  by_cases hbeside : url.holds = false ∨ w.docs = none
  · have hbeside' : url.holds = false ∨ w'.docs = none := by
      rcases hbeside with h | h
      · exact .inl h
      · cases V <;> simp_all [Slack.sources]
    rw [exec_documentationAt_beside hbeside, exec_documentationAt_beside hbeside']
    exact .answer _ _ _ _ hw (by cases V <;> simp [Slack.raw])
  · push Not at hbeside
    have hholds : url.holds = true := by simpa using hbeside.1
    obtain ⟨fetcher, hfetcher⟩ := Option.ne_none_iff_exists'.mp hbeside.2
    have hrequire : ∀ (address : String) (w : Workbench),
        exec (require (some address)) w = (.ok address, w) := fun _ _ => rfl
    rw [exec_documentationAt_fetch hholds hfetcher]
    cases V with
    | docs legible =>
      -- only the first run asks the network; the second takes what stands beside the address
      rw [exec_documentationAt_beside (.inr hsources)]
      cases htext : url.text? with
      | none =>
        refine .first _ _ _ (.inr ⟨?_, rfl⟩)
        by_contra htrue
        obtain rfl : legible = true := by simpa using htrue
        have := (hlegible rfl hholds).1
        rw [htext] at this
        cases this
      | some address =>
        obtain ⟨notes, hfetch⟩ := exec_fetchDocs fetcher address name w
        rw [exec_bind_ok (hrequire address w), exec_bind, hfetch]
        cases hresult : (fetcher.fetch address name).1.result with
        | error e => exact .first _ _ _ (.inl (isFetch_of_fetch hresult))
        | ok s =>
          refine .answer _ _ _ _ ⟨hw.models, hsources⟩ ?_
          cases legible with
          | true => exact .inr (.inr ⟨rfl, (hlegible rfl hholds).2⟩)
          | false => exact .inr (.inl rfl)
    | nothing | bounds =>
      -- both runs ask the same source
      have hsame : w'.docs = some fetcher := hsources.trans hfetcher
      rw [exec_documentationAt_fetch hholds hsame]
      cases url.text? with
      | none => exact .fail _ w w'
      | some address =>
        obtain ⟨notes, hfetch⟩ := exec_fetchDocs fetcher address name w
        obtain ⟨notes', hfetch'⟩ := exec_fetchDocs fetcher address name w'
        rw [exec_bind_ok (hrequire address w), exec_bind_ok (hrequire address w'), exec_bind,
          exec_bind, hfetch, hfetch']
        cases (fetcher.fetch address name).1.result with
        | error e => exact .fail e _ _
        | ok s => exact .answer _ _ _ _ ⟨hw.models, rfl⟩ rfl

end Parallel

end TypedApi
