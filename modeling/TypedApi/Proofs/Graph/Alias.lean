import TypedApi.Proofs.Graph.Finish
import Mathlib.Data.Fintype.Card
import Mathlib.Data.Set.Finite.List
import Mathlib.Logic.Relation
/-!
Aliases, and where they end.

An item may be another name for one other item, which may be another name in turn.
From an item to the one that it is a name for there is at most one way to go, and in
a finished model that way either comes to an item that is no alias or goes round in
a ring. Which of the two it is can be read off the paths that are registered, where
all aliases that do not lead back to an earlier item lead to one with a path: a ring
is then a ring of paths as well.
-/

set_option autoImplicit false

namespace TypedApi

open Relation (ReflTransGen TransGen)

/-- Where everything that has a property leads on to something that has it, and there are finitely
many things to come to, something leads to itself. -/
theorem exists_cycle {α : Type} {P : α → Prop} {R : α → α → Prop} {places : List α}
    (hplaces : ∀ a, P a → a ∈ places) (hnext : ∀ a, P a → ∃ b, P b ∧ R a b) {a : α} (ha : P a) :
    ∃ b, P b ∧ TransGen R b b := by
  by_contra hnone
  -- without a cycle the relation is well-founded on the finitely many things with the property
  have hfinite : Finite {a // P a} :=
    Set.Finite.to_subtype (List.finite_toSet places |>.subset hplaces)
  let leads : {a // P a} → {a // P a} → Prop := fun b a => TransGen R a.1 b.1
  have : IsTrans _ leads := ⟨fun _ _ _ hcb hba => hba.trans hcb⟩
  have : Std.Irrefl leads := ⟨fun b hb => hnone ⟨b.1, b.2, hb⟩⟩
  have hwf : WellFounded leads := Finite.wellFounded_of_trans_of_irrefl leads
  obtain ⟨last, _, hlast⟩ := hwf.has_min Set.univ ⟨⟨a, ha⟩, trivial⟩
  obtain ⟨b, hb, hrel⟩ := hnext last.1 last.2
  exact hlast ⟨b, hb⟩ trivial (.single hrel)

/-! ## Aliases -/

/-- What a shape is another name for, if it is nothing else. -/
def Shape.target? : Shape → Option Ref
  | .synonym target => some target
  | .override _ _ _ _ target => some target
  | _ => none

@[simp] theorem Shape.target?_relocate (g : Ref → Ref) (shape : Shape) :
    (shape.relocate g).target? = shape.target?.map g := by
  cases shape <;> rfl

@[simp] theorem Shape.target?_unnamed (shape : Shape) : shape.unnamed.target? = shape.target? := by
  cases shape <;> rfl

theorem Shape.mem_refs_of_target? {shape : Shape} {t : Ref} (h : shape.target? = some t) :
    t ∈ shape.refs := by
  cases shape with
  | synonym | override =>
    cases h
    exact List.mem_singleton_self _
  | _ => cases h

namespace Model

variable {m : Model} {N : String → String → Prop} {i j : Nat}

/-- The item at an index is another name for the one at another index. -/
def AliasTo (m : Model) (i j : Nat) : Prop :=
  ∃ item, m.definitions[i]? = some item ∧ item.shape.target? = some (.resolved j)

/-- The item at an index is no alias. -/
def IsProper (m : Model) (i : Nat) : Prop :=
  ∃ item, m.definitions[i]? = some item ∧ item.shape.target? = none

/-- From the item at an index aliases lead to an item that is none. -/
def AliasEnds (m : Model) (i : Nat) : Prop :=
  ∃ j, ReflTransGen m.AliasTo i j ∧ m.IsProper j

/-- An alias is another name for one item. -/
theorem AliasTo.unique {k : Nat} (h : m.AliasTo i j) (h' : m.AliasTo i k) : j = k := by
  obtain ⟨item, hitem, hj⟩ := h
  obtain ⟨item', hitem', hk⟩ := h'
  cases hitem.symm.trans hitem'
  rw [hj, Option.some.injEq, Ref.resolved.injEq] at hk
  exact Int.ofNat_inj.mp hk

/-- What is no alias is another name for nothing. -/
theorem IsProper.not_aliasTo (h : m.IsProper i) : ¬m.AliasTo i j := by
  rintro ⟨item, hitem, hj⟩
  obtain ⟨item', hitem', hnone⟩ := h
  cases hitem.symm.trans hitem'
  rw [hnone] at hj
  cases hj

/-- Aliases that come round to their start do not end. -/
theorem AliasEnds.not_ring (h : m.AliasEnds i) : ¬TransGen m.AliasTo i i := by
  obtain ⟨j, hij, hproper⟩ := h
  induction hij using ReflTransGen.head_induction_on with
  | refl =>
    intro hring
    obtain ⟨k, hk, _⟩ := TransGen.head'_iff.mp hring
    exact hproper.not_aliasTo hk
  | head hstep _ ih =>
    intro hring
    obtain ⟨k, hk, hrest⟩ := TransGen.head'_iff.mp hring
    cases hstep.unique hk
    exact ih (TransGen.tail' hrest hstep)

/-- Where aliases end, they end for every item on the way. -/
theorem AliasEnds.of_reflTransGen (h : m.AliasEnds i) (hij : ReflTransGen m.AliasTo i j) :
    m.AliasEnds j := by
  induction hij with
  | refl => exact h
  | tail _ hstep ih =>
    obtain ⟨last, hlast, hproper⟩ := ih
    rcases ReflTransGen.cases_head hlast with rfl | ⟨next, hnext, hrest⟩
    · exact absurd hstep hproper.not_aliasTo
    · exact ⟨last, hnext.unique hstep ▸ hrest, hproper⟩

/-- **An item of a finished model** is no alias if it was none before, and else an alias of the item
that its reference led to. -/
theorem Finishes.target_cases {m' : Model} (h : m.Finishes m')
    (hpaths : ∀ p ∈ m.namedReferences, 0 ≤ p.2 ∧ p.2 < m.size) {item : Item}
    (hitem : m.definitions[i]? = some item) :
    ∃ item', m'.definitions[i]? = some item' ∧
      ((item.shape.target? = none ∧ item'.shape.target? = none) ∨
        ∃ (t : Ref) (j : Nat), item.shape.target? = some t ∧ m.indexOf t = .ok (j : Int) ∧
          j < m.size ∧ item'.shape.target? = some (.resolved j)) := by
  obtain ⟨g, hg, hunnamed⟩ := h.relocated
  have hat := congrArg (·.definitions[i]?) hunnamed
  simp only [unnamed, relocate, List.getElem?_map, hitem] at hat
  obtain ⟨item', hitem', hsame⟩ := Option.map_eq_some_iff.mp hat
  have htarget : item'.shape.target? = item.shape.target?.map g := by
    rw [← Shape.target?_relocate, ← Shape.target?_unnamed]
    exact congrArg (·.shape.target?) hsame
  refine ⟨item', hitem', ?_⟩
  cases ht : item.shape.target? with
  | none => exact .inl ⟨rfl, by rw [htarget, ht]; rfl⟩
  | some t =>
    have hmem := refs_shape_subset (List.mem_of_getElem? hitem) (Shape.mem_refs_of_target? ht)
    obtain ⟨index, hindex, hresolved⟩ := hg t hmem
    obtain ⟨hpos, hlt⟩ := inRange_of_indexOf_eq_ok hpaths hindex
    lift index to Nat using hpos
    exact .inr ⟨t, index, rfl, hindex, by omega, by rw [htarget, ht, ← hresolved]; rfl⟩

/-- An item that is no alias is none in the finished model. -/
theorem Finishes.isProper {m' : Model} (h : m.Finishes m')
    (hpaths : ∀ p ∈ m.namedReferences, 0 ≤ p.2 ∧ p.2 < m.size) (hi : m.IsProper i) :
    m'.IsProper i := by
  obtain ⟨item, hitem, hnone⟩ := hi
  obtain ⟨item', hitem', ⟨_, hnone'⟩ | ⟨t, _, ht, _⟩⟩ := h.target_cases hpaths hitem
  · exact ⟨item', hitem', hnone'⟩
  · rw [hnone] at ht
    cases ht

/-- Every item of a finished model is an alias of an item of the model or none. -/
theorem Finishes.leads {m' : Model} (h : m.Finishes m')
    (hpaths : ∀ p ∈ m.namedReferences, 0 ≤ p.2 ∧ p.2 < m.size) (hi : i < m'.size) :
    m'.IsProper i ∨ ∃ j, j < m'.size ∧ m'.AliasTo i j := by
  rw [h.size_eq] at hi ⊢
  obtain ⟨item', hitem', ⟨_, hnone⟩ | ⟨t, j, _, _, hj, htarget⟩⟩ :=
    h.target_cases hpaths (List.getElem?_eq_getElem hi)
  · exact .inl ⟨item', hitem', hnone⟩
  · exact .inr ⟨j, hj, item', hitem', htarget⟩

/-- An alias of a finished model was one before, of what its reference led to. -/
theorem Finishes.of_aliasTo {m' : Model} (h : m.Finishes m')
    (hpaths : ∀ p ∈ m.namedReferences, 0 ≤ p.2 ∧ p.2 < m.size) (hij : m'.AliasTo i j) :
    ∃ item t, m.definitions[i]? = some item ∧ item.shape.target? = some t ∧
      m.indexOf t = .ok (j : Int) := by
  obtain ⟨new, hnew, htarget⟩ := hij
  have hi : i < m.size := h.size_eq ▸ (List.getElem?_eq_some_iff.mp hnew).1
  obtain ⟨new', hnew', hcases⟩ := h.target_cases hpaths (List.getElem?_eq_getElem hi)
  cases hnew.symm.trans hnew'
  rcases hcases with ⟨_, hnone⟩ | ⟨t, k, ht, hindex, _, hk⟩
  · rw [hnone] at htarget
    cases htarget
  · rw [htarget, Option.some.injEq, Ref.resolved.injEq] at hk
    exact ⟨_, t, List.getElem?_eq_getElem hi, ht, hk ▸ hindex⟩

/-! ## Aliases and paths -/

/-- Every item is an alias of another item or none. An alias is of an earlier item or of one with a
path; and an alias with a path of its own is of an item that is no alias, or of one whose path comes
after its own in a relation between paths. -/
structure Chained (N : String → String → Prop) (m : Model) : Prop where
  leads : ∀ i, i < m.size → m.IsProper i ∨ ∃ j, j < m.size ∧ m.AliasTo i j
  back : ∀ i j, m.AliasTo i j → j < i ∨ ∃ path, m.namedReferences.get? path = some (j : Int)
  along : ∀ path (i j : Nat), m.namedReferences.get? path = some (i : Int) → m.AliasTo i j →
    m.IsProper j ∨ ∃ next, TransGen N path next ∧ m.namedReferences.get? next = some (j : Int)

theorem AliasEnds.head (h : m.AliasTo i j) (hj : m.AliasEnds j) : m.AliasEnds i := by
  obtain ⟨k, hk, hproper⟩ := hj
  exact ⟨k, hk.head h, hproper⟩

theorem IsProper.aliasEnds (h : m.IsProper i) : m.AliasEnds i :=
  ⟨i, .refl, h⟩

/-- Aliases that do not end come to an item with a path. The induction is on the index, for as long
as they lead to earlier items. -/
theorem Chained.ends_or_path (h : m.Chained N) (hi : i < m.size) :
    m.AliasEnds i ∨ ∃ path, ∃ j : Nat, m.namedReferences.get? path = some (j : Int) ∧
      ReflTransGen m.AliasTo i j ∧ j < m.size ∧ ¬m.AliasEnds j := by
  induction i using Nat.strong_induction_on with
  | _ i ih =>
    rcases h.leads i hi with hproper | ⟨j, hj, hij⟩
    · exact .inl hproper.aliasEnds
    by_cases hends : m.AliasEnds j
    · exact .inl (.head hij hends)
    rcases h.back i j hij with hlt | ⟨path, hpath⟩
    · rcases ih j hlt hj with hends' | ⟨path, k, hpath, hjk, hk, hnot⟩
      · exact absurd hends' hends
      · exact .inr ⟨path, k, hpath, hjk.head hij, hk, hnot⟩
    · exact .inr ⟨path, j, hpath, .single hij, hj, hends⟩

/-- One path comes after another, and so do their items. -/
def StepsTo (N : String → String → Prop) (m : Model) (path next : String) : Prop :=
  TransGen N path next ∧ ∀ i : Nat, m.namedReferences.get? path = some (i : Int) →
    ∃ j : Nat, m.namedReferences.get? next = some (j : Int) ∧ m.AliasTo i j

theorem transGen_of_stepsTo {path next : String} (h : TransGen (m.StepsTo N) path next) :
    TransGen N path next ∧ ∀ i : Nat, m.namedReferences.get? path = some (i : Int) →
      ∃ j : Nat, m.namedReferences.get? next = some (j : Int) ∧ TransGen m.AliasTo i j := by
  induction h with
  | single h =>
    refine ⟨h.1, fun i hi => ?_⟩
    obtain ⟨j, hj, hij⟩ := h.2 i hi
    exact ⟨j, hj, .single hij⟩
  | tail _ hstep ih =>
    refine ⟨ih.1.trans hstep.1, fun i hi => ?_⟩
    obtain ⟨j, hj, hij⟩ := ih.2 i hi
    obtain ⟨k, hk, hjk⟩ := hstep.2 j hj
    exact ⟨k, hk, hij.tail hjk⟩

/-- **Aliases end, or they come to a ring of paths**: from every item they lead to an item that is
no alias, or to an item with a path from which they come round to it, and the relation between paths
from its path to itself. -/
theorem Chained.ends_or_ring (h : m.Chained N) (hi : i < m.size) :
    m.AliasEnds i ∨ ∃ path, ∃ j : Nat, m.namedReferences.get? path = some (j : Int) ∧
      ReflTransGen m.AliasTo i j ∧ TransGen m.AliasTo j j ∧ TransGen N path path := by
  rcases h.ends_or_path hi with hends | ⟨path, j, hpath, hij, hj, hnot⟩
  · exact .inl hends
  refine .inr ?_
  -- the paths of items that aliases lead to from here and from which they do not end
  let Met : String → Prop := fun path => ∃ j : Nat,
    m.namedReferences.get? path = some (j : Int) ∧ ReflTransGen m.AliasTo i j ∧ j < m.size ∧
      ¬m.AliasEnds j
  have hplaces : ∀ path, Met path → path ∈ m.namedReferences.keys := by
    rintro path ⟨j, hj, _⟩
    exact List.mem_map_of_mem (Table.mem_of_get?_eq_some hj)
  have hnext : ∀ path, Met path → ∃ next, Met next ∧ m.StepsTo N path next := by
    rintro path ⟨j, hpath, hij, hj, hnot⟩
    rcases h.leads j hj with hproper | ⟨k, hk, hjk⟩
    · exact absurd hproper.aliasEnds hnot
    have hnot' : ¬m.AliasEnds k := fun hends => hnot (.head hjk hends)
    rcases h.along path j k hpath hjk with hproper | ⟨next, hnext, hget⟩
    · exact absurd hproper.aliasEnds hnot'
    refine ⟨next, ⟨k, hget, hij.tail hjk, hk, hnot'⟩, hnext, fun j' hj' => ?_⟩
    rw [hpath, Option.some.injEq, Int.ofNat_inj] at hj'
    exact ⟨k, hget, hj' ▸ hjk⟩
  obtain ⟨ring, ⟨k, hring, hik, _⟩, hcycle⟩ :=
    exists_cycle hplaces hnext ⟨j, hpath, hij, hj, hnot⟩
  obtain ⟨hpaths, hitems⟩ := transGen_of_stepsTo hcycle
  obtain ⟨k', hk', hkk⟩ := hitems k hring
  rw [hring, Option.some.injEq, Int.ofNat_inj] at hk'
  exact ⟨ring, k, hring, hik, hk' ▸ hkk, hpaths⟩

end Model

end TypedApi
