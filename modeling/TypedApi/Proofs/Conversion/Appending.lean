import TypedApi.Proofs.Conversion.Calls
import TypedApi.Proofs.Conversion.Stages
import Mathlib.Data.List.Chain
/-!
Models only grow.

Whatever is called, a model under construction gets items, names and paths at
the end and loses none. An item that is stored keeps its place and all of its
fields but documentation and marks; a path that is registered keeps its index.
Finishing keeps all of this too: it puts the references of every item to the
indices that they led to and gives names to variants.

`Model.Kept` says what is kept between two moments. It holds of one elementary
change of a model and is transitive, so it holds between any two moments of a
history.
-/

set_option autoImplicit false

namespace TypedApi

open Build

/-! ## Tables -/

namespace Table

variable {α : Type} {t t' : Table α}

/-- Writing the value that a key has changes nothing. -/
theorem insert_of_get?_eq_some {key : String} {value : α} (h : t.get? key = some value) :
    t.insert key value = t := by
  induction t with
  | nil => cases h
  | cons p rest ih =>
    obtain ⟨k, v⟩ := p
    rw [get?] at h
    rw [insert]
    split at h
    · cases h
      subst k
      rw [if_pos rfl]
    · rw [if_neg ‹_›, ih h]

/-- A key keeps its value in a longer table. -/
theorem get?_of_prefix (h : t <+: t') {key : String} {value : α} (hget : t.get? key = some value) :
    t'.get? key = some value := by
  obtain ⟨rest, rfl⟩ := h
  induction t with
  | nil => cases hget
  | cons p t ih =>
    obtain ⟨k, v⟩ := p
    rw [get?] at hget
    rw [List.cons_append, get?]
    split at hget
    · rw [if_pos ‹_›]
      exact hget
    · rw [if_neg ‹_›]
      exact ih hget

/-- Writing a key that is new, or its own value, makes a table longer at most. -/
theorem prefix_insert {key : String} {value : α}
    (h : ∀ old, t.get? key = some old → old = value) : t <+: t.insert key value := by
  cases hget : t.get? key with
  | none =>
    rw [insert_of_get?_eq_none t key value hget]
    exact List.prefix_append _ _
  | some old =>
    have hsame := insert_of_get?_eq_some (h old hget ▸ hget)
    simp only [hsame, List.prefix_rfl]

end Table

/-! ## What is kept -/

/-- Two stages of one stored item: all is the same but documentation, marks and shape. -/
structure Item.Stays (item item' : Item) : Prop where
  generatedName : item'.generatedName = item.generatedName
  specName : item'.specName = item.specName
  innerName : item'.innerName = item.innerName
  nullable : item'.nullable = item.nullable
  newtype : item'.newtype = item.newtype
  contentType : item'.contentType = item.contentType

/-- The shape of a finished model for a shape: its references lead to where they led, by index now,
and its variants may have names. -/
def Shape.Settles (m : Model) (shape shape' : Shape) : Prop :=
  ∃ g : Ref → Ref,
    (∀ r ∈ shape.refs, ∃ index, m.indexOf r = .ok index ∧ g r = .resolved index) ∧
    shape'.unnamed = (shape.relocate g).unnamed

/-- What becomes of a shape between two moments: nothing, unless the model is finished between
them. -/
def Shape.Stays (m m' : Model) (shape shape' : Shape) : Prop :=
  (m'.finalized = m.finalized ∧ shape' = shape) ∨
    (m.finalized = false ∧ m'.finalized = true ∧ Shape.Settles m' shape shape')

/-- What is kept of a model: every name and every path with its index, and every item in its place.
Nothing that is added comes before what was there. -/
structure Model.Kept (m m' : Model) : Prop where
  items : m.items <+: m'.items
  paths : m.namedReferences <+: m'.namedReferences
  definitions : ∀ (i : Nat) (item : Item), m.definitions[i]? = some item →
    ∃ item' : Item, m'.definitions[i]? = some item' ∧ item.Stays item' ∧
      Shape.Stays m m' item.shape item'.shape
  finalized : m.finalized = true → m'.finalized = true

theorem Item.Stays.refl (item : Item) : item.Stays item :=
  ⟨rfl, rfl, rfl, rfl, rfl, rfl⟩

theorem Item.Stays.trans {a b c : Item} (h : a.Stays b) (h' : b.Stays c) : a.Stays c where
  generatedName := h'.generatedName.trans h.generatedName
  specName := h'.specName.trans h.specName
  innerName := h'.innerName.trans h.innerName
  nullable := h'.nullable.trans h.nullable
  newtype := h'.newtype.trans h.newtype
  contentType := h'.contentType.trans h.contentType

/-- A remark on an item leaves the item in all that is kept, and its shape. -/
theorem Item.Remark.stays {f : Item → Item} (hf : Item.Remark f) (item : Item) :
    item.Stays (f item) ∧ (f item).shape = item.shape := by
  obtain ⟨docs, pubTypedef, implHeader, heq⟩ := hf item
  rw [heq]
  exact ⟨⟨rfl, rfl, rfl, rfl, rfl, rfl⟩, rfl⟩

namespace Model

variable {m m' m'' : Model}

/-- A reference leads to the same index where there are no fewer items, and paths are added at the
end. -/
theorem indexOf_of_prefix (hsize : m.size ≤ m'.size)
    (hpaths : m.namedReferences <+: m'.namedReferences) {r : Ref} {index : Int}
    (hr : m.indexOf r = .ok index) : m'.indexOf r = .ok index := by
  cases r with
  | forward path =>
    rw [indexOf] at hr ⊢
    split at hr
    · cases hr
      rw [Table.get?_of_prefix hpaths ‹_›]
    · cases hr
  | back i | resolved i =>
    rw [indexOf] at hr ⊢
    split at hr
    · cases hr
      have hrange := inRange_iff.mp ‹_›
      rw [if_pos (inRange_iff.mpr ⟨hrange.1, by omega⟩)]
    · cases hr

namespace Kept

theorem refl (m : Model) : m.Kept m where
  items := List.prefix_rfl
  paths := List.prefix_rfl
  definitions _ item h := ⟨item, h, .refl item, .inl ⟨rfl, rfl⟩⟩
  finalized := id

/-- No item is lost. -/
theorem size_le (h : m.Kept m') : m.size ≤ m'.size := by
  by_contra hlt
  have hi : m'.definitions.length < m.definitions.length := Nat.lt_of_not_le hlt
  obtain ⟨_, hitem', _⟩ := h.definitions _ _ (List.getElem?_eq_getElem hi)
  rw [List.getElem?_eq_none (Nat.le_refl _)] at hitem'
  cases hitem'

/-- A reference that led to an item leads to the same one. -/
theorem indexOf (h : m.Kept m') {r : Ref} {index : Int} (hr : m.indexOf r = .ok index) :
    m'.indexOf r = .ok index :=
  indexOf_of_prefix h.size_le h.paths hr

/-- What is kept twice is kept. Finishing happens once, so a shape is settled in at most one of the
two spans. -/
theorem trans (h : m.Kept m') (h' : m'.Kept m'') : m.Kept m'' where
  items := h.items.trans h'.items
  paths := h.paths.trans h'.paths
  finalized hfinal := h'.finalized (h.finalized hfinal)
  definitions := by
    intro i item hitem
    obtain ⟨item', hitem', hstays, hshape⟩ := h.definitions i item hitem
    obtain ⟨item'', hitem'', hstays', hshape'⟩ := h'.definitions i item' hitem'
    refine ⟨item'', hitem'', hstays.trans hstays', ?_⟩
    rcases hshape with ⟨hsame, heq⟩ | ⟨hopen, hfinal, g, hg, heq⟩
    · rw [Shape.Stays, ← heq, ← hsame]
      exact hshape'
    · rcases hshape' with ⟨hsame', heq'⟩ | ⟨hopen', _⟩
      · refine .inr ⟨hopen, hsame'.trans hfinal, g, fun r hr => ?_, heq' ▸ heq⟩
        obtain ⟨index, hindex, hresolved⟩ := hg r hr
        exact ⟨index, h'.indexOf hindex, hresolved⟩
      · rw [hfinal] at hopen'
        cases hopen'

instance : IsTrans Model Model.Kept := ⟨fun _ _ _ => trans⟩

/-- A change that leaves names, paths and items alone keeps them. -/
theorem of_eq (hitems : m'.items = m.items) (hpaths : m'.namedReferences = m.namedReferences)
    (hdefinitions : m'.definitions = m.definitions) (hfinal : m'.finalized = m.finalized) :
    m.Kept m' where
  items := hitems ▸ List.prefix_rfl
  paths := hpaths ▸ List.prefix_rfl
  definitions _ item h := ⟨item, hdefinitions ▸ h, .refl item, .inl ⟨hfinal, rfl⟩⟩
  finalized h := hfinal.trans h

end Kept
end Model

variable {S : Standard} {m m' : Model}

/-- **A step keeps all.** A new item goes to the end under a name and a path that are new, a remark
changes what is not kept, and a path that is registered again led to the same item. -/
theorem Step.kept (h : Step S m m') : m.Kept m' := by
  cases h with
  | add item path proposed _ _ hname hpath _ =>
    refine ⟨Table.prefix_insert fun old hold => ?_, ?_, fun i old hold => ?_, id⟩
    · rw [hname] at hold
      cases hold
    · cases path with
      | none => exact List.prefix_rfl
      | some p =>
        refine Table.prefix_insert fun old hold => ?_
        rw [hpath p rfl] at hold
        cases hold
    · have hget : (m.definitions ++ [item])[i]? = some old :=
        (List.getElem?_append_left (List.getElem?_eq_some_iff.mp hold).1).trans hold
      exact ⟨old, hget, .refl old, .inl ⟨rfl, rfl⟩⟩
  | change i f hf =>
    refine ⟨List.prefix_rfl, List.prefix_rfl, fun j old hold => ?_, id⟩
    have hget : (m.withChange i f).definitions[j]? = some (if i = j then f old else old) := by
      simp [Model.withChange, List.getElem?_modify, hold]
    refine ⟨_, hget, ?_⟩
    split
    · obtain ⟨hstays, hshape⟩ := hf.stays old
      exact ⟨hstays, .inl ⟨rfl, hshape⟩⟩
    · exact ⟨.refl old, .inl ⟨rfl, rfl⟩⟩
  | register path index _ hold _ =>
    exact ⟨List.prefix_rfl, Table.prefix_insert hold,
      fun _ item hitem => ⟨item, hitem, .refl item, .inl ⟨rfl, rfl⟩⟩, id⟩
  | operate | share | accept => exact .of_eq rfl rfl rfl rfl

/-- Any number of steps keep all. -/
theorem Steps.kept (h : Steps S m m') : m.Kept m' := by
  induction h with
  | refl => exact .refl _
  | tail _ step ih => exact ih.trans step.kept

instance : IsPreorder Model (Steps S) where
  refl _ := .refl
  trans _ _ _ := .trans

/-- A build that goes along with every standard takes steps, whatever the model is. -/
theorem Keeps.of_along {α : Type} {x : Build α} {Q : α → Model → Prop}
    (hx : ∀ m, Along .anything m x Q) : Keeps (Steps .anything) x :=
  ⟨fun w => ((hx w.model).runs (Call.sound_anything _) w rfl).1⟩

/-- So all is kept by it. -/
theorem kept_of_exec {α : Type} {x : Build α} {Q : α → Model → Prop} {w w' : Workbench}
    {answer : Except Failure α} (hx : ∀ m, Along .anything m x Q) (h : exec x w = (answer, w')) :
    w.model.Kept w'.model :=
  ((Keeps.of_along hx).of_exec h).kept

/-- **Finishing keeps all**, whether it succeeds or fails, and in whatever state the model is. -/
theorem Model.kept_finish (m : Model) : m.Kept m.finish.1 := by
  by_cases hopen : m.finalized = false
  · rcases Model.finish_cases hopen with ⟨e, hfinish, _⟩ | ⟨hfinish, hrefs⟩
    · rw [hfinish]
      exact .refl m
    · have hsame := Model.unnamed_nameAll m.settled
      have hindexOf := fun r => Model.indexOf_finish hopen r
      rw [hfinish] at hindexOf ⊢
      have hitems : m.settled.nameAll.1.items = m.settled.items :=
        congrArg (fun m => m.items) hsame
      have hpaths : m.settled.nameAll.1.namedReferences = m.settled.namedReferences :=
        congrArg (fun m => m.namedReferences) hsame
      have hdefinitions : m.settled.nameAll.1.definitions.map Item.unnamed =
          (m.definitions.map (Item.relocate (settle m.resolved))).map Item.unnamed :=
        congrArg Model.definitions hsame
      have hfinal : m.settled.nameAll.1.finalized = true := congrArg Model.finalized hsame
      refine ⟨hitems ▸ List.prefix_rfl, hpaths ▸ List.prefix_rfl,
        fun i item hitem => ?_, fun _ => hfinal⟩
      -- without names the item at each place is the old one with its references relocated
      have hi := congrArg (·[i]?) hdefinitions
      simp only [List.getElem?_map, hitem, Option.map_some] at hi
      obtain ⟨item', hitem', heq⟩ := Option.map_eq_some_iff.mp hi
      have hstays : item.Stays item'.unnamed := by
        rw [heq]
        exact ⟨rfl, rfl, rfl, rfl, rfl, rfl⟩
      refine ⟨item', hitem', hstays.trans ⟨rfl, rfl, rfl, rfl, rfl, rfl⟩,
        .inr ⟨hopen, hfinal, settle m.resolved, fun r hr => ?_, congrArg Item.shape heq⟩⟩
      rw [hindexOf]
      have hmem := Model.refs_shape_subset (List.mem_of_getElem? hitem) hr
      exact Model.resolved_eq_ok_iff.mp (hrefs r hmem)
  · rw [Model.finish, if_pos (by simpa using hopen)]
    exact .refl m

theorem Model.kept_of_finish {e : Option Failure} (h : m.finish = (m', e)) : m.Kept m' := by
  have hkept := m.kept_finish
  rwa [h] at hkept

/-! ## Histories -/

/-- One elementary change of a model: a step of a build, or the end of it. -/
inductive Change : Model → Model → Prop
  | step {m m' : Model} : Step .anything m m' → Change m m'
  | finish (m : Model) : Change m m.finish.1

/-- An elementary change keeps all. -/
theorem Change.kept (h : Change m m') : m.Kept m' := by
  cases h with
  | step h => exact h.kept
  | finish => exact m.kept_finish

namespace Call

/-- A call takes elementary changes only, whether it answers or fails. -/
theorem changes_run (call : Call) (w : Workbench) :
    Relation.ReflTransGen Change w.model (exec call.run w).2.model := by
  by_cases hfinish : call = .finish
  · subst hfinish
    rw [run, exec_finish]
    exact .single (.finish _)
  · have hsteps := ((run_along call hfinish _).runs (sound_anything _) w rfl).1
    exact Relation.ReflTransGen.mono (fun _ _ => Change.step) _ _ hsteps

/-- So does any sequence of calls. -/
theorem changes_after (calls : List Call) (w : Workbench) :
    Relation.ReflTransGen Change w.model (after calls w).model := by
  induction calls generalizing w with
  | nil => exact .refl
  | cons call rest ih => exact (changes_run call w).trans (ih _)

/-- All that there is before some calls is kept by them. -/
theorem kept_by_calls (calls : List Call) (w : Workbench) : w.model.Kept (after calls w).model := by
  have hchanges := changes_after calls w
  generalize (after calls w).model = m at hchanges
  induction hchanges with
  | refl => exact .refl _
  | tail _ hchange ih => exact ih.trans hchange.kept

/-- What comes later starts where what came before has ended. -/
theorem after_append (before later : List Call) (w : Workbench) :
    after (before ++ later) w = after later (after before w) := by
  induction before generalizing w with
  | nil => rfl
  | cons call rest ih => exact ih _

/-- **Models only grow.** Between any two moments of any sequence of calls, whatever their arguments
and whether they answer or fail, the model goes through a history of elementary changes, and at
every moment of it all is kept of every earlier one. -/
theorem kept_after (before later : List Call) (w : Workbench) :
    ∃ history : List Model,
      history.head? = some (after before w).model ∧
      history.getLast? = some (after (before ++ later) w).model ∧
      history.IsChain Change ∧ history.Pairwise Model.Kept := by
  have hchanges := changes_after later (after before w)
  rw [← after_append] at hchanges
  obtain ⟨rest, hchain, hlast⟩ := List.exists_isChain_cons_of_relationReflTransGen hchanges
  refine ⟨_ :: rest, rfl, ?_, hchain, ?_⟩
  · rw [List.getLast?_eq_some_getLast (List.cons_ne_nil _ _), hlast]
  · exact (hchain.imp fun _ _ => Change.kept).pairwise

end Call

end TypedApi
