import TypedApi.Proofs.Graph.Relocation
import TypedApi.Proofs.Name.Identifier
/-!
Naming the variants of a model.

Naming changes the display names of variants and nothing else: a model and the
same model after naming are one model once the names are taken off again. If
naming reaches its end, every variant has got its name, and every such name is
an identifier that is not reserved. It stops early only at a variant that has a
name already, or at one that refers to no item.
-/

set_option autoImplicit false

namespace TypedApi

/-! ## Taking names off -/

/-- A variant without its display name. -/
def Variant.unnamed (v : Variant) : Variant :=
  { v with name := .unnamed }

/-- A shape without the display names of its variants. -/
def Shape.unnamed : Shape → Shape
  | .oneOf discriminant variants => .oneOf discriminant (variants.map Variant.unnamed)
  | other => other

/-- An item without the display names of its variants. -/
def Item.unnamed (item : Item) : Item :=
  { item with shape := item.shape.unnamed }

namespace Model

/-- A model without the display names of its variants. -/
def unnamed (m : Model) : Model :=
  { m with
    definitions := m.definitions.map Item.unnamed
    responseVariants := m.responseVariants.map fun p => (p.1, p.2.map Variant.unnamed) }

end Model

@[simp] theorem Variant.definition_unnamed (v : Variant) : v.unnamed.definition = v.definition :=
  rfl

@[simp] theorem Shape.refs_unnamed (shape : Shape) : shape.unnamed.refs = shape.refs := by
  cases shape <;> simp [unnamed, refs]

@[simp] theorem Model.refs_unnamed (m : Model) : m.unnamed.refs = m.refs := by
  simp [unnamed, refs, Item.unnamed, List.flatMap_map, Function.comp_def]

@[simp] theorem Model.size_unnamed (m : Model) : m.unnamed.size = m.size := by
  simp [unnamed, size]

/-- Taking names off changes nothing where no variant has one. -/
theorem Variant.unnamed_eq {v : Variant} (h : v.name = .unnamed) : v.unnamed = v := by
  rw [unnamed, ← h]

theorem Shape.unnamed_eq {shape : Shape} (h : ∀ v ∈ shape.variants, v.name = .unnamed) :
    shape.unnamed = shape := by
  cases shape with
  | oneOf discriminant vs =>
    have hmap : vs.map Variant.unnamed = vs.map id :=
      List.map_congr_left fun v hv => Variant.unnamed_eq (h v hv)
    rw [unnamed, hmap, List.map_id]
  | _ => rfl

theorem Model.unnamed_eq {m : Model} (h : ∀ v ∈ m.variants, v.name = .unnamed) :
    m.unnamed = m := by
  have hdefinitions : m.definitions.map Item.unnamed = m.definitions.map id := by
    apply List.map_congr_left
    intro item hitem
    have hshape : item.shape.unnamed = item.shape :=
      Shape.unnamed_eq fun v hv => h v (mem_variants.mpr (.inl ⟨item, hitem, hv⟩))
    rw [Item.unnamed, hshape]
    rfl
  have hshared : m.responseVariants.map (fun p => (p.1, p.2.map Variant.unnamed))
      = m.responseVariants.map id := by
    apply List.map_congr_left
    intro p hp
    have hmap : p.2.map Variant.unnamed = p.2.map id := List.map_congr_left fun v hv =>
      Variant.unnamed_eq (h v (mem_variants.mpr (.inr ⟨p, hp, hv⟩)))
    rw [hmap, List.map_id]
    rfl
  rw [unnamed, hdefinitions, hshared, List.map_id, List.map_id]

/-! ## Naming one variant -/

/-- A display name that a generated module can use. -/
structure Variant.Presentable (v : Variant) : Prop where
  named : ∃ name, v.name = .named name ∧ Name.IsIdentifier name ∧ Name.isReserved name = false

/-- **Naming a variant** fails, or gives it a usable name and keeps all else. -/
theorem Variant.assignName_cases (nameOf : Ref → Except Failure (Option String)) (v : Variant)
    (index : Nat) :
    (∃ e, v.assignName index nameOf = .error e) ∨
    ∃ v', v.assignName index nameOf = .ok v' ∧ v'.Presentable ∧ v'.unnamed = v.unnamed := by
  have hnamed : ∀ base, Presentable { v with name := .named (nameFrom index base) } :=
    fun base => ⟨_, rfl, (nameFrom_isIdentifier index base)⟩
  rw [assignName]
  cases v.name with
  -- a variant is named once; a second time is a failure
  | named value => exact .inl ⟨_, rfl⟩
  | unnamed =>
    cases v.taggedBase? with
    | some base => exact .inr ⟨_, rfl, hnamed _, rfl⟩
    | none =>
      cases nameOf v.definition with
      | error e => exact .inl ⟨e, rfl⟩
      | ok base => exact .inr ⟨_, rfl, hnamed _, rfl⟩

variable {nameOf : Ref → Except Failure (Option String)}

/-- A variant without a name gets one if its reference leads to an item. -/
theorem Variant.assignName_ok {v : Variant} (index : Nat) (h : v.name = .unnamed)
    (href : ∃ base, nameOf v.definition = .ok base) : ∃ v', v.assignName index nameOf = .ok v' := by
  obtain ⟨base, hbase⟩ := href
  simp only [assignName, h, hbase]
  cases v.taggedBase? with
  | some tag => exact ⟨_, rfl⟩
  | none => exact ⟨_, rfl⟩

/-! ## Naming a list of variants -/

namespace Model

/-- Naming variants keeps all but their names, also if it stops early. -/
theorem map_unnamed_nameVariants (index : Nat) (vs : List Variant) :
    (nameVariants nameOf index vs).1.map Variant.unnamed = vs.map Variant.unnamed := by
  induction vs generalizing index with
  | nil => rfl
  | cons v vs ih =>
    rw [nameVariants]
    rcases v.assignName_cases nameOf index with ⟨e, he⟩ | ⟨v', hv', _, hsame⟩
    · rw [he]
    · rw [hv']
      simp only [List.map_cons, hsame, ih]

/-- Variants named to the end have usable names. -/
theorem presentable_nameVariants {index : Nat} {vs : List Variant}
    (h : (nameVariants nameOf index vs).2 = none) :
    ∀ v ∈ (nameVariants nameOf index vs).1, v.Presentable := by
  induction vs generalizing index with
  | nil => simp [nameVariants]
  | cons v vs ih =>
    rw [nameVariants] at h ⊢
    rcases v.assignName_cases nameOf index with ⟨e, he⟩ | ⟨v', hv', hpresent, _⟩
    · rw [he] at h
      cases h
    · rw [hv'] at h ⊢
      exact List.forall_mem_cons.mpr ⟨hpresent, ih h⟩

/-- Naming reaches the end of variants without names that refer to items. -/
theorem nameVariants_eq_none {index : Nat} {vs : List Variant}
    (h : ∀ v ∈ vs, v.name = .unnamed ∧ ∃ base, nameOf v.definition = .ok base) :
    (nameVariants nameOf index vs).2 = none := by
  induction vs generalizing index with
  | nil => rfl
  | cons v vs ih =>
    obtain ⟨hname, href⟩ := h v List.mem_cons_self
    obtain ⟨v', hv'⟩ := v.assignName_ok index hname href
    rw [nameVariants, hv']
    apply ih
    intro u hu
    exact h u (List.mem_cons_of_mem _ hu)

/-- Variants without names and tags are named after the items that they refer to. -/
theorem names_of_nameVariants {index : Nat} {vs : List Variant} {names : List String}
    (h : List.Forall₂ (fun v name => v.name = .unnamed ∧ v.taggedBase? = none ∧
      nameOf v.definition = .ok (some name)) vs names) :
    (nameVariants nameOf index vs).1.map Variant.name =
      (names.zipIdx index).map fun p => .named (Variant.nameFrom p.2 (some p.1)) := by
  induction h generalizing index with
  | nil => rfl
  | @cons v name vs names hv _ ih =>
    obtain ⟨hname, htag, hbase⟩ := hv
    have hassign : v.assignName index nameOf =
        .ok { v with name := .named (Variant.nameFrom index (some name)) } := by
      simp only [Variant.assignName, hname, htag, hbase]
    rw [nameVariants, hassign]
    simp only [List.map_cons, ih, List.zipIdx_cons]

/-! ## Naming a list of parts -/

variable {α β : Type} {step : α → α × Option Failure}

/-- What every step keeps is kept up to the end, also if that comes early. -/
theorem map_eachUntil (g : α → β) (h : ∀ a, g (step a).1 = g a) (l : List α) :
    (eachUntil step l).1.map g = l.map g := by
  induction l with
  | nil => rfl
  | cons a l ih =>
    rw [eachUntil]
    rcases hstep : step a with ⟨a', _ | e⟩
    · have ha := h a
      rw [hstep] at ha
      simp only [List.map_cons, ih, ha]
    · have ha := h a
      rw [hstep] at ha
      simp only [List.map_cons, ha]

/-- If the end is reached, then every element is the outcome of a step that succeeded. -/
theorem of_mem_eachUntil {l : List α} (h : (eachUntil step l).2 = none) :
    ∀ b ∈ (eachUntil step l).1, ∃ a ∈ l, step a = (b, none) := by
  induction l with
  | nil => simp [eachUntil]
  | cons a l ih =>
    rw [eachUntil] at h ⊢
    rcases hstep : step a with ⟨a', _ | e⟩
    · rw [hstep] at h
      intro b hb
      rcases List.mem_cons.mp hb with rfl | hb
      · exact ⟨a, List.mem_cons_self, hstep⟩
      · obtain ⟨c, hc, hcb⟩ := ih h b hb
        exact ⟨c, List.mem_cons_of_mem _ hc, hcb⟩
    · rw [hstep] at h
      cases h

/-- If the end is reached, each element has been put through its step. -/
theorem eachUntil_eq_map {l : List α} (h : (eachUntil step l).2 = none) :
    (eachUntil step l).1 = l.map (fun a => (step a).1) ∧ ∀ a ∈ l, (step a).2 = none := by
  induction l with
  | nil => exact ⟨rfl, by simp⟩
  | cons a l ih =>
    rw [eachUntil] at h ⊢
    rcases hstep : step a with ⟨a', _ | e⟩
    · rw [hstep] at h
      obtain ⟨hmap, hrest⟩ := ih h
      refine ⟨by simp only [List.map_cons, hmap, hstep], List.forall_mem_cons.mpr ⟨?_, hrest⟩⟩
      rw [hstep]
    · rw [hstep] at h
      cases h

/-- The end is reached if every step succeeds. -/
theorem eachUntil_eq_none {l : List α} (h : ∀ a ∈ l, (step a).2 = none) :
    (eachUntil step l).2 = none := by
  induction l with
  | nil => rfl
  | cons a l ih =>
    have ha := h a List.mem_cons_self
    rw [eachUntil]
    rcases hstep : step a with ⟨a', _ | e⟩
    · apply ih
      intro b hb
      exact h b (List.mem_cons_of_mem _ hb)
    · rw [hstep] at ha
      cases ha

/-! ## Items and models -/

/-- Naming an item changes the names of its variants only. -/
theorem unnamed_nameItem (nameOf : Ref → Except Failure (Option String)) (item : Item) :
    (nameItem nameOf item).1.unnamed = item.unnamed := by
  rw [nameItem]
  split
  · rename_i discriminant vs hshape
    simp only [Item.unnamed, Shape.unnamed, map_unnamed_nameVariants, hshape]
  · rfl

/-- An item named to the end has usable names. -/
theorem presentable_nameItem {item : Item} (h : (nameItem nameOf item).2 = none) :
    ∀ v ∈ (nameItem nameOf item).1.shape.variants, v.Presentable := by
  rw [nameItem] at h ⊢
  split at h
  · rename_i discriminant vs hshape
    exact presentable_nameVariants h
  · rename_i hshape
    intro v hv
    rw [Shape.variants] at hv
    · cases hv
    · exact hshape

/-- Naming reaches the end of an item whose variants have no names and refer to items. -/
theorem nameItem_eq_none {item : Item}
    (h : ∀ v ∈ item.shape.variants, v.name = .unnamed ∧ ∃ base, nameOf v.definition = .ok base) :
    (nameItem nameOf item).2 = none := by
  rw [nameItem]
  split
  · rename_i discriminant vs hshape
    rw [hshape] at h
    exact nameVariants_eq_none h
  · rfl

/-- **Naming changes the names of variants and nothing else**, also if it stops early. -/
theorem unnamed_nameAll (m : Model) : m.nameAll.1.unnamed = m.unnamed := by
  unfold nameAll
  extract_lets nameOf step
  have hdefinitions := map_eachUntil Item.unnamed (unnamed_nameItem nameOf) m.definitions
  rcases heach : eachUntil (nameItem nameOf) m.definitions with ⟨definitions, _ | e⟩
  · rw [heach] at hdefinitions
    have hstep : ∀ p : String × List Variant, ((step p).1.1, (step p).1.2.map Variant.unnamed) =
        (p.1, p.2.map Variant.unnamed) := by
      intro p
      simp only [step, map_unnamed_nameVariants]
    have hshared := map_eachUntil (fun p => (p.1, p.2.map Variant.unnamed)) hstep
      m.responseVariants
    simp only [unnamed, hdefinitions, hshared]
  -- the items up to the failure are named, and the shared responses are as they were
  · rw [heach] at hdefinitions
    simp only [unnamed, hdefinitions]

/-- **If naming reaches its end, every variant has a usable name.** -/
theorem presentable_nameAll {m : Model} (h : m.nameAll.2 = none) :
    ∀ v ∈ m.nameAll.1.variants, v.Presentable := by
  revert h
  unfold nameAll
  extract_lets nameOf step
  intro h
  rcases heach : eachUntil (nameItem nameOf) m.definitions with ⟨definitions, _ | e⟩
  · rw [heach] at h
    intro v hv
    rcases mem_variants.mp hv with ⟨item, hitem, hv⟩ | ⟨p, hp, hv⟩
    · have hmem : item ∈ (eachUntil (nameItem nameOf) m.definitions).1 := by
        rw [heach]
        exact hitem
      -- the item is the outcome of naming one that was there before
      obtain ⟨old, _, hold⟩ := of_mem_eachUntil (congrArg Prod.snd heach) item hmem
      have hpresent := presentable_nameItem (congrArg Prod.snd hold)
      rw [hold] at hpresent
      exact hpresent v hv
    · obtain ⟨old, _, hold⟩ := of_mem_eachUntil h p hp
      obtain ⟨rfl, hnone⟩ := Prod.mk.inj hold
      exact presentable_nameVariants hnone v hv
  · rw [heach] at h
    cases h

/-- If naming reaches its end, each item has been named. -/
theorem definitions_nameAll {m : Model} (h : m.nameAll.2 = none) :
    m.nameAll.1.definitions =
      m.definitions.map fun item => (nameItem (fun r => (m.nameOf r).map some) item).1 := by
  revert h
  unfold nameAll
  extract_lets nameOf step
  rcases heach : eachUntil (nameItem nameOf) m.definitions with ⟨definitions, _ | e⟩
  · intro _
    have hitems := (eachUntil_eq_map (congrArg Prod.snd heach)).1
    rw [heach] at hitems
    exact hitems
  · intro h
    cases h

/-- Naming reaches its end if no variant has a name and every one refers to an item. -/
theorem nameAll_eq_none {m : Model}
    (h : ∀ v ∈ m.variants, v.name = .unnamed ∧ ∃ base, m.nameOf v.definition = .ok base) :
    m.nameAll.2 = none := by
  unfold nameAll
  extract_lets nameOf step
  have hnameOf : ∀ v ∈ m.variants,
      v.name = .unnamed ∧ ∃ base, nameOf v.definition = .ok base := by
    intro v hv
    obtain ⟨hname, base, hbase⟩ := h v hv
    exact ⟨hname, some base, by simp [nameOf, hbase, Except.map]⟩
  -- the items come first; only if they all get their names are the shared responses reached
  have hitems : (eachUntil (nameItem nameOf) m.definitions).2 = none := by
    apply eachUntil_eq_none
    intro item hitem
    apply nameItem_eq_none
    intro v hv
    exact hnameOf v (mem_variants.mpr (.inl ⟨item, hitem, hv⟩))
  rcases heach : eachUntil (nameItem nameOf) m.definitions with ⟨definitions, _ | e⟩
  · apply eachUntil_eq_none
    intro p hp
    apply nameVariants_eq_none
    intro v hv
    exact hnameOf v (mem_variants.mpr (.inr ⟨p, hp, hv⟩))
  · rw [heach] at hitems
    cases hitems

end Model

end TypedApi
