import TypedApi.Graph.Capability
import TypedApi.Proofs.Build.Along
import TypedApi.Proofs.Graph.Naming
/-!
Finishing a model is all or nothing.

A model can be finished exactly when each of its references leads to an item: a
path must be registered, and an index must be that of an item. If one of them
does not, the model is left as it was. Otherwise every reference becomes the
index that it led to before, the variants get their names, and nothing else
changes; comparing, copying and hashing mean the same for every item afterwards.
-/

set_option autoImplicit false

namespace TypedApi

namespace Model

/-- A reference that leads to an item: a registered path, or the index of an item. -/
def Leads (m : Model) : Ref → Prop
  | .forward path => path ∈ m.namedReferences.keys
  | .back index => 0 ≤ index ∧ index < m.size
  | .resolved index => 0 ≤ index ∧ index < m.size

/-- A model that can still be finished: no variant has a name yet, and every registered path leads
to an item. -/
structure Pending (m : Model) : Prop where
  unfinished : m.finalized = false
  unnamed : ∀ v ∈ m.variants, v.name = .unnamed
  registered : ∀ p ∈ m.namedReferences, 0 ≤ p.2 ∧ p.2 < m.size

/-- What finishing makes of a model: every reference is resolved to the index that it led to, the
names of variants aside nothing else is changed, and no item has gained or lost a capability. -/
structure Finishes (m m' : Model) : Prop where
  relocated : ∃ g, (∀ r ∈ m.refs, ∃ index, m.indexOf r = .ok index ∧ g r = .resolved index) ∧
    m'.unnamed = { m.relocate g with acceptHeader := none, finalized := true }
  items : m'.items = m.items
  namedReferences : m'.namedReferences = m.namedReferences
  capabilities : ∀ (i : Nat) (item item' : Item) (c : Capability), m.definitions[i]? = some item →
    m'.definitions[i]? = some item' → m'.has c item' = m.has c item

variable {m m' : Model}

/-! ## Lookups -/

theorem inRange_iff {index : Int} : m.inRange index = true ↔ 0 ≤ index ∧ index < m.size := by
  simp [inRange]

/-- An index is found for a reference exactly if the reference leads to an item. -/
theorem indexOf_ok_iff {r : Ref} : (∃ index, m.indexOf r = .ok index) ↔ m.Leads r := by
  -- a back reference and a resolved one are checked in the same way
  have hindex : ∀ (index : Int) (e : Except Failure Int), (∀ i, e ≠ .ok i) →
      ((∃ i, (if m.inRange index then .ok index else e) = .ok i) ↔
        0 ≤ index ∧ index < m.size) := by
    intro index e he
    rw [← inRange_iff]
    by_cases h : m.inRange index = true
    · simp [h]
    · simp [h, he]
  cases r with
  | forward path =>
    rw [Leads, indexOf]
    cases hget : m.namedReferences.get? path with
    | none => simpa [fail] using Table.get?_eq_none_iff.mp hget
    | some index =>
      have hmem := Table.mem_of_get?_eq_some hget
      simpa [Table.keys] using ⟨index, hmem⟩
  | back index => exact hindex index _ (by simp [fail])
  | resolved index => exact hindex index _ (by simp [fail])

/-- A reference that leads nowhere is unknown. -/
theorem problem_of_indexOf_eq_error {r : Ref} {e : Failure} (h : m.indexOf r = .error e) :
    ∃ reference, e = ⟨.unknownReference reference, none⟩ := by
  cases r with
  | forward path =>
    rw [indexOf] at h
    split at h
    · cases h
    · cases h
      exact ⟨_, rfl⟩
  | back index | resolved index =>
    rw [indexOf] at h
    split at h
    · cases h
    · cases h
      exact ⟨_, rfl⟩

/-- The index found for a reference is that of an item, if all registered ones are. -/
theorem inRange_of_indexOf_eq_ok (hpaths : ∀ p ∈ m.namedReferences, 0 ≤ p.2 ∧ p.2 < m.size)
    {r : Ref} {index : Int} (h : m.indexOf r = .ok index) : 0 ≤ index ∧ index < m.size := by
  cases r with
  | forward path =>
    rw [indexOf] at h
    split at h
    · cases h
      exact hpaths _ (Table.mem_of_get?_eq_some ‹_›)
    · cases h
  | back i | resolved i =>
    rw [indexOf] at h
    split at h
    · cases h
      exact inRange_iff.mp ‹_›
    · cases h

/-- An index leads to itself. -/
theorem eq_of_indexOf_back {b index : Int} (h : m.indexOf (.back b) = .ok index) : index = b := by
  rw [indexOf] at h
  split at h
  · exact (Except.ok.inj h).symm
  · cases h

/-- A path leads to the index that it is registered for. -/
theorem get?_of_indexOf_forward {path : String} {index : Int}
    (h : m.indexOf (.forward path) = .ok index) : m.namedReferences.get? path = some index := by
  rw [indexOf] at h
  split at h
  · cases h
    assumption
  · cases h

/-- Finishing neither adds an item nor takes one away. -/
theorem Finishes.size_eq (h : m.Finishes m') : m'.size = m.size := by
  obtain ⟨g, _, hunnamed⟩ := h.relocated
  simpa [size, unnamed, relocate] using congrArg (·.definitions.length) hunnamed

theorem resolved_eq_ok_iff {r r' : Ref} :
    m.resolved r = .ok r' ↔ ∃ index, m.indexOf r = .ok index ∧ r' = .resolved index := by
  rw [resolved]
  cases m.indexOf r with
  | ok index => simp [eq_comm]
  | error e => simp

theorem resolved_eq_error_iff {r : Ref} {e : Failure} :
    m.resolved r = .error e ↔ m.indexOf r = .error e := by
  rw [resolved]
  cases m.indexOf r with
  | ok index => simp
  | error e => simp

/-- The index of an item is its position. -/
theorem position?_natCast {i : Nat} (h : i < m.size) : m.position? (i : Int) = some i := by
  have hneg : ¬(i : Int) < 0 := by omega
  have hlt : (i : Int) < m.size := by omega
  simp [position?, hneg, hlt]

/-- The item at a position is found by its index. -/
theorem itemAt_natCast {i : Nat} {item : Item} (h : m.definitions[i]? = some item) :
    m.itemAt (i : Int) = .ok item := by
  obtain ⟨hi, _⟩ := List.getElem?_eq_some_iff.mp h
  rw [itemAt, position?_natCast (by rwa [size]), Option.bind_some, h]
  rfl

/-- An index of an item is its own index, as long as the model is built and afterwards. -/
theorem indexOf_back {i : Nat} (h : i < m.size) : m.indexOf (.back i) = .ok (i : Int) := by
  rw [indexOf, if_pos (inRange_iff.mpr ⟨by omega, by omega⟩)]

theorem indexOf_resolved {i : Nat} (h : i < m.size) : m.indexOf (.resolved i) = .ok (i : Int) := by
  rw [indexOf, if_pos (inRange_iff.mpr ⟨by omega, by omega⟩)]

/-- A reference to an item leads to its name. -/
theorem nameOf_eq {r : Ref} {i : Nat} {item : Item} (hr : m.indexOf r = .ok (i : Int))
    (h : m.definitions[i]? = some item) : m.nameOf r = .ok item.generatedName := by
  rw [nameOf, resolve, hr]
  dsimp only
  rw [itemAt_natCast h]
  rfl

/-- The index of an item leads to its name. -/
theorem nameOf_resolved {i : Nat} {item : Item} (h : m.definitions[i]? = some item) :
    m.nameOf (.resolved i) = .ok item.generatedName :=
  nameOf_eq (indexOf_resolved (List.getElem?_eq_some_iff.mp h).1) h

theorem nameOf_back {i : Nat} {item : Item} (h : m.definitions[i]? = some item) :
    m.nameOf (.back i) = .ok item.generatedName :=
  nameOf_eq (indexOf_back (List.getElem?_eq_some_iff.mp h).1) h

/-- An item that a reference leads to has a name. -/
theorem nameOf_ok {r : Ref} {index : Int} (hindex : m.indexOf r = .ok index)
    (h : 0 ≤ index ∧ index < m.size) : ∃ name, m.nameOf r = .ok name := by
  obtain ⟨i, rfl⟩ := Int.eq_ofNat_of_zero_le h.1
  have hi : i < m.definitions.length := by
    have := h.2
    rw [size] at this
    omega
  exact ⟨_, nameOf_eq hindex (List.getElem?_eq_getElem hi)⟩

/-! ## References and variants of a model -/

theorem definition_mem_refs {v : Variant} (hv : v ∈ m.variants) : v.definition ∈ m.refs := by
  rcases mem_variants.mp hv with ⟨item, hitem, hv⟩ | ⟨p, hp, hv⟩
  · refine List.mem_append_left _ (List.mem_append_left _ (List.mem_flatMap.mpr ⟨item, hitem, ?_⟩))
    cases hshape : item.shape with
    | oneOf discriminant vs =>
      rw [hshape] at hv
      exact List.mem_map_of_mem hv
    | _ =>
      rw [hshape] at hv
      cases hv
  · exact List.mem_append_right _ (List.mem_flatMap.mpr ⟨p, hp, List.mem_map_of_mem hv⟩)

theorem refs_shape_subset {item : Item} (h : item ∈ m.definitions) : item.shape.refs ⊆ m.refs :=
  fun _ hr => List.mem_append_left _ (List.mem_append_left _ (List.mem_flatMap.mpr ⟨item, h, hr⟩))

/-- Relocation gives no variant a name. -/
theorem name_of_mem_variants_relocate {g : Ref → Ref} (h : ∀ v ∈ m.variants, v.name = .unnamed) :
    ∀ v ∈ (m.relocate g).variants, v.name = .unnamed := by
  intro v hv
  rcases mem_variants.mp hv with ⟨item, hitem, hv⟩ | ⟨p, hp, hv⟩
  · obtain ⟨old, hold, rfl⟩ := List.mem_map.mp hitem
    have hvariants : ∀ u ∈ old.shape.variants, u.name = .unnamed :=
      fun u hu => h u (mem_variants.mpr (.inl ⟨old, hold, hu⟩))
    cases hshape : old.shape with
    | oneOf discriminant vs =>
      simp only [Item.relocate, hshape, Shape.relocate, Shape.variants] at hv
      rw [hshape] at hvariants
      obtain ⟨u, hu, rfl⟩ := List.mem_map.mp hv
      exact hvariants u hu
    | _ =>
      simp only [Item.relocate, hshape, Shape.relocate, Shape.variants] at hv
      cases hv
  · obtain ⟨q, hq, rfl⟩ := List.mem_map.mp hp
    obtain ⟨u, hu, rfl⟩ := List.mem_map.mp hv
    exact h u (mem_variants.mpr (.inr ⟨q, hq, hu⟩))

/-! ## The end -/

/-- The model with every reference resolved, before its variants get their names. -/
def settled (m : Model) : Model :=
  { m.relocate (settle m.resolved) with acceptHeader := none, finalized := true }

/-- **Finishing** an unfinished model leaves it alone if a reference leads nowhere; else it resolves
every reference and goes on to name the variants. -/
theorem finish_cases (hopen : m.finalized = false) :
    (∃ e, m.finish = (m, some e) ∧ ∃ r ∈ m.refs, m.indexOf r = .error e) ∨
    m.finish = m.settled.nameAll ∧ ∀ r ∈ m.refs, m.resolved r = .ok (settle m.resolved r) := by
  rw [finish, if_neg (by simp [hopen])]
  -- all lookups come before the first change, so a failure finds the model untouched
  rcases m.relocates_resolveAll.cases with ⟨hok, hrefs⟩ | ⟨e, herror, r, hr, he⟩
  · rw [hok]
    exact .inr ⟨rfl, hrefs⟩
  · rw [herror]
    exact .inl ⟨e, rfl, r, hr, resolved_eq_error_iff.mp he⟩

/-- A model that has been finished was open, and each item has been relocated and named. -/
theorem definitions_finish (h : m.finish = (m', none)) :
    m.finalized = false ∧ m'.definitions = m.definitions.map fun item =>
      (nameItem (fun r => (m.settled.nameOf r).map some) (item.relocate (settle m.resolved))).1 := by
  have hopen : m.finalized = false := by
    cases hfinal : m.finalized with
    | false => rfl
    | true =>
      rw [finish, if_pos hfinal] at h
      cases h
  rcases finish_cases hopen with ⟨e, hfail, _⟩ | ⟨hok, _⟩
  · rw [hfail] at h
    cases h
  · rw [hok] at h
    have hdefinitions := definitions_nameAll (congrArg Prod.snd h)
    rw [h, settled, relocate, List.map_map] at hdefinitions
    exact ⟨hopen, hdefinitions⟩

/-- Where every reference leads to an item, the references are resolved to the items. -/
theorem settled_refs (hrefs : ∀ r ∈ m.refs, m.resolved r = .ok (settle m.resolved r))
    (hpaths : ∀ p ∈ m.namedReferences, 0 ≤ p.2 ∧ p.2 < m.size) :
    ∀ r ∈ m.settled.refs, ∃ index, r = .resolved index ∧ 0 ≤ index ∧ index < m.size := by
  intro r hr
  have hmap : m.settled.refs = m.refs.map (settle m.resolved) := refs_relocate _ _
  rw [hmap] at hr
  obtain ⟨s, hs, rfl⟩ := List.mem_map.mp hr
  obtain ⟨index, hindex, heq⟩ := resolved_eq_ok_iff.mp (hrefs s hs)
  exact ⟨index, heq, inRange_of_indexOf_eq_ok hpaths hindex⟩

/-- A pending model whose references lead to items is finished without failure. -/
theorem nameAll_settled (h : m.Pending)
    (hrefs : ∀ r ∈ m.refs, m.resolved r = .ok (settle m.resolved r)) :
    m.settled.nameAll.2 = none := by
  refine nameAll_eq_none fun v hv => ⟨name_of_mem_variants_relocate h.unnamed v hv, ?_⟩
  obtain ⟨index, hindex, hrange⟩ := settled_refs hrefs h.registered _ (definition_mem_refs hv)
  have hsize : m.settled.size = m.size := size_relocate _ _
  rw [← hsize] at hrange
  -- a resolved reference is found by its index, and there are as many items as before
  have hok : m.settled.indexOf v.definition = .ok index := by
    rw [hindex, indexOf, if_pos (inRange_iff.mpr hrange)]
  exact nameOf_ok hok hrange

end Model

/-! ## Capabilities -/

@[simp] theorem Shape.verdict?_relocate (c : Capability) (g : Ref → Ref) (shape : Shape) :
    (shape.relocate g).verdict? c = shape.verdict? c := by
  cases shape <;> rfl

@[simp] theorem Shape.verdict?_unnamed (c : Capability) (shape : Shape) :
    shape.unnamed.verdict? c = shape.verdict? c := by
  cases shape <;> rfl

/-- Asking all of a list at their new places is asking all of it. -/
theorem allM_map_congr {α β ε : Type} {g : α → β} {k : α → Except ε Bool} {k' : β → Except ε Bool}
    {l : List α} (h : ∀ a ∈ l, k' (g a) = k a) : (l.map g).allM k' = l.allM k := by
  induction l with
  | nil => rfl
  | cons a l ih =>
    simp only [List.map_cons, List.allM, h a List.mem_cons_self,
      ih fun b hb => h b (List.mem_cons_of_mem _ hb)]

namespace Model

variable {m m' : Model}

/-- The lookups of a model depend on the count of its items only. -/
theorem position?_congr (h : m'.size = m.size) (index : Int) :
    m'.position? index = m.position? index := by
  rw [position?, position?, h]

/-- Two models with the same items, references and names aside, hold related items at every
position. -/
theorem items_at {g : Ref → Ref}
    (h : m'.definitions.map Item.unnamed = (m.definitions.map (Item.relocate g)).map Item.unnamed)
    (i : Nat) :
    (m.definitions[i]? = none ∧ m'.definitions[i]? = none) ∨
    ∃ item item', m.definitions[i]? = some item ∧ m'.definitions[i]? = some item' ∧
      item'.shape.unnamed = (item.shape.relocate g).unnamed := by
  have hi := congrArg (·[i]?) h
  simp only [List.getElem?_map] at hi
  cases hold : m.definitions[i]? with
  | none =>
    rw [hold] at hi
    exact .inl ⟨rfl, Option.map_eq_none_iff.mp hi⟩
  | some item =>
    rw [hold] at hi
    obtain ⟨item', hnew, hitem⟩ := Option.map_eq_some_iff.mp hi
    exact .inr ⟨item, item', rfl, hnew, congrArg Item.shape hitem⟩

/-- **Capabilities are kept** where references are relocated to what they led to and variants are
named. The induction is on the fuel, over all shapes at once. -/
theorem shapeHas_relocate {g : Ref → Ref} (c : Capability)
    (hdefinitions : m'.definitions.map Item.unnamed =
      (m.definitions.map (Item.relocate g)).map Item.unnamed)
    (hindex : ∀ r ∈ m.refs, m'.indexOf (g r) = m.indexOf r)
    (fuel : Nat) (seen : List Int) {shape shape' : Shape} (hrefs : shape.refs ⊆ m.refs)
    (hshape : shape'.unnamed = (shape.relocate g).unnamed) :
    m'.shapeHas c fuel seen shape' = m.shapeHas c fuel seen shape := by
  have hsize : m'.size = m.size := by
    simpa [size] using congrArg List.length hdefinitions
  induction fuel generalizing seen shape shape' with
  | zero => rfl
  | succ fuel ih =>
    have hverdict : shape'.verdict? c = shape.verdict? c := by
      rw [← Shape.verdict?_unnamed, hshape, Shape.verdict?_unnamed, Shape.verdict?_relocate]
    -- the two shapes have the same verdict and corresponding references
    have hmap : shape'.refs = shape.refs.map g := by
      rw [← Shape.refs_unnamed, hshape, Shape.refs_unnamed, Shape.refs_relocate]
    rw [shapeHas, shapeHas, hverdict, hmap]
    cases shape.verdict? c with
    | some answer => rfl
    | none =>
      -- the verdict is left to the references: each leads to the same place in both models
      apply allM_map_congr
      intro r hr
      rw [hindex r (hrefs hr)]
      cases m.indexOf r with
      | error e => rfl
      | ok index =>
        simp only [bind, Except.bind]
        split
        · rfl
        · rw [itemAt, itemAt, position?_congr hsize]
          cases m.position? index with
          | none => rfl
          | some i =>
            simp only [Option.bind_some]
            rcases items_at hdefinitions i with ⟨hold, hnew⟩ | ⟨item, item', hold, hnew, hitem⟩
            · rw [hold, hnew]
              rfl
            · rw [hold, hnew]
              exact ih _ (refs_shape_subset (List.mem_of_getElem? hold)) hitem

/-- A pending model whose references lead to items becomes its finished form. -/
theorem finishes_nameAll (h : m.Pending)
    (hrefs : ∀ r ∈ m.refs, m.resolved r = .ok (settle m.resolved r)) :
    m.Finishes m.settled.nameAll.1 := by
  have hsame := unnamed_nameAll m.settled
  have hbare : m.settled.unnamed = m.settled :=
    unnamed_eq (name_of_mem_variants_relocate h.unnamed)
  have hindex : ∀ r ∈ m.refs, ∃ index, m.indexOf r = .ok index ∧
      settle m.resolved r = .resolved index :=
    fun r hr => resolved_eq_ok_iff.mp (hrefs r hr)
  have hitems := congrArg Model.items hsame
  have hnamed := congrArg Model.namedReferences hsame
  refine ⟨⟨settle m.resolved, hindex, hsame.trans hbare⟩, hitems, hnamed, ?_⟩
  intro i item item' c hitem hitem'
  have hdefinitions := congrArg Model.definitions hsame
  have hsize : m.settled.nameAll.1.size = m.size := by
    simpa [size, unnamed, settled, relocate] using congrArg List.length hdefinitions
  -- a lookup in the finished model gives the index that the lookup gave before
  have hlookup : ∀ r ∈ m.refs,
      m.settled.nameAll.1.indexOf (settle m.resolved r) = m.indexOf r := by
    intro r hr
    obtain ⟨index, hok, heq⟩ := hindex r hr
    have hrange : m.settled.nameAll.1.inRange index = true := by
      rw [inRange_iff, hsize]
      exact inRange_of_indexOf_eq_ok h.registered hok
    rw [heq, hok, indexOf, if_pos hrange]
  rw [has, has, hsize]
  rcases items_at hdefinitions i with ⟨hold, _⟩ | ⟨old, new, hold, hnew, hshape⟩
  · rw [hold] at hitem
    cases hitem
  · cases hold.symm.trans hitem
    cases hnew.symm.trans hitem'
    exact shapeHas_relocate c hdefinitions hlookup _ []
      (refs_shape_subset (List.mem_of_getElem? hitem)) hshape

theorem finishes_of_finish (h : m.Pending) (hfinish : m.finish = (m', none)) : m.Finishes m' := by
  rcases finish_cases h.unfinished with ⟨e, hfail, _⟩ | ⟨hok, hrefs⟩
  · rw [hfail] at hfinish
    cases hfinish
  · rw [hok] at hfinish
    have hsame : m.settled.nameAll.1 = m' := congrArg Prod.fst hfinish
    exact hsame ▸ finishes_nameAll h hrefs

end Model

/-! ## The call -/

namespace Build

/-- The call leaves what finishing makes of the model, and touches nothing else. -/
theorem exec_finish (w : Workbench) :
    exec finish w =
      (match w.model.finish.2 with
        | some e => .error e
        | none => .ok (),
      { w with model := w.model.finish.1 }) := by
  rw [finish, exec_bind_model]
  rcases w.model.finish with ⟨m, _ | e⟩
  · rfl
  · rfl

/-- What cannot be finished has a reference that leads nowhere. -/
theorem unknown_of_exec_finish {w : Workbench} {e : Failure} (h : w.model.Pending)
    (he : (exec finish w).1 = .error e) : ∃ reference, e = ⟨.unknownReference reference, none⟩ := by
  rw [exec_finish] at he
  rcases Model.finish_cases h.unfinished with ⟨e', hfinish, r, _, hr⟩ | ⟨hfinish, hrefs⟩
  · rw [hfinish] at he
    cases he
    exact Model.problem_of_indexOf_eq_error hr
  · rw [hfinish, Model.nameAll_settled h hrefs] at he
    cases he

/-- **Finishing is all or nothing.** It succeeds exactly if every reference leads to an item. If it
fails, it names a reference that does not, and leaves everything as it was, so that the missing path
can be registered and the model finished as if nothing had happened. If it succeeds, it resolves
every reference to the index that it led to and keeps all but the names of variants. -/
theorem finish_all_or_nothing (w : Workbench) (h : w.model.Pending) :
    ((exec finish w).1 = .ok () ↔ ∀ r ∈ w.model.refs, w.model.Leads r) ∧
    (∀ e, (exec finish w).1 = .error e →
      (∃ r ∈ w.model.refs, w.model.indexOf r = .error e) ∧
      (∃ reference, e = ⟨.unknownReference reference, none⟩) ∧
      (exec finish w).2 = w ∧
      ∀ path r, exec (registerPath path r >>= fun _ => finish) (exec finish w).2 =
        exec (registerPath path r >>= fun _ => finish) w) ∧
    ((exec finish w).1 = .ok () →
      ∃ m', (exec finish w).2 = { w with model := m' } ∧ w.model.Finishes m') := by
  rw [exec_finish]
  rcases Model.finish_cases h.unfinished with ⟨e, hfinish, r, hr, he⟩ | ⟨hfinish, hrefs⟩
  · rw [hfinish]
    -- the reference that the failure is about is one that leads nowhere
    have hnowhere : ¬∀ r ∈ w.model.refs, w.model.Leads r := by
      intro hleads
      obtain ⟨index, hindex⟩ := Model.indexOf_ok_iff.mpr (hleads r hr)
      rw [he] at hindex
      cases hindex
    refine ⟨⟨fun hok => ?_, fun hleads => (hnowhere hleads).elim⟩, fun e' he' => ?_, fun hok => ?_⟩
    · cases hok
    · cases he'
      exact ⟨⟨r, hr, he⟩, Model.problem_of_indexOf_eq_error he, rfl, fun _ _ => rfl⟩
    · cases hok
  · have hnone := Model.nameAll_settled h hrefs
    rw [hfinish, hnone]
    refine ⟨⟨fun _ r hr => ?_, fun _ => rfl⟩, fun e he => ?_, fun _ => ?_⟩
    · obtain ⟨index, hindex, _⟩ := Model.resolved_eq_ok_iff.mp (hrefs r hr)
      exact Model.indexOf_ok_iff.mp ⟨index, hindex⟩
    · cases he
    · exact ⟨_, rfl, Model.finishes_nameAll h hrefs⟩

/-- A list of itself, known by its path. -/
def selfList : Model :=
  { definitions :=
      [{ generatedName := "Node", shape := .list (.forward "#/components/schemas/Node") }]
    items := [("Node", 0)]
    namedReferences := [("#/components/schemas/Node", 0)] }

/-- A list of itself can be finished: its path leads back to it. -/
theorem finish_selfList :
    selfList.Pending ∧ (exec finish { model := selfList }).1 = .ok () := by
  have hpending : selfList.Pending := by
    refine ⟨rfl, ?_, ?_⟩
    · simp [Model.variants, selfList, Shape.variants]
    · simp [selfList, Model.size]
  refine ⟨hpending, (finish_all_or_nothing { model := selfList } hpending).1.mpr ?_⟩
  simp [Model.refs, selfList, Shape.refs, Model.Leads, Table.keys]

end Build

end TypedApi
