import TypedApi.Proofs.Build.Keeps
import Mathlib.Algebra.GroupWithZero.Nat
/-!
Items in pairs.

An item that admits null over another one is stored right after it: it names the
other and is an alias that holds its index. `Model.Paired` says so of all items
that name another, and `Model.pairs` counts them.

`MakesPairs k x` says that a build `x` leaves the pairs of every model in order,
whether it answers or fails, and that there are `k` more of them where it answers.
A build may answer with an item that is still to be stored; if that item names
another, it counts already, and the other one is the last that is stored.
-/

set_option autoImplicit false

namespace TypedApi

open Build

variable {α β : Type}

/-! ## Pairs -/

/-- An item names another one that it admits null over. -/
def Item.isOuter (item : Item) : Bool :=
  item.innerName.isSome

/-- An item is another one with null: it admits null, it names the other, and it is an alias that
holds the index of the other. The other one does not admit null and names nothing. -/
structure Item.Wraps (outer inner : Item) (index : Nat) : Prop where
  innerName : outer.innerName = some inner.generatedName
  nullable : outer.nullable = true
  synonym : ∃ r, outer.shape = .synonym r ∧ r.index? = some (index : Int)
  inner_nullable : inner.nullable = false
  inner_innerName : inner.innerName = none

namespace Model

/-- An item that stands at a place is the item before it with null, if it names another at all. -/
def PairsAt (m : Model) (i : Nat) (item : Item) : Prop :=
  item.isOuter = true →
    ∃ j inner, j + 1 = i ∧ m.definitions[j]? = some inner ∧ item.Wraps inner j

/-- Every item that names another is the item before it with null. -/
def Paired (m : Model) : Prop :=
  ∀ i item, m.definitions[i]? = some item → m.PairsAt i item

/-- How many items name another. -/
def pairs (m : Model) : Nat :=
  m.definitions.countP Item.isOuter

variable {m m' : Model}

theorem pairsAt_of_innerName_eq_none {i : Nat} {item : Item} (h : item.innerName = none) :
    m.PairsAt i item := by
  intro houter
  rw [Item.isOuter, h] at houter
  cases houter

theorem paired_of_definitions_eq_nil (h : m.definitions = []) : m.Paired := by
  intro i item hitem
  rw [h] at hitem
  cases hitem

/-- Pairs are a matter of items alone. -/
theorem Paired.of_definitions_eq (hm : m.Paired) (h : m'.definitions = m.definitions) :
    m'.Paired := by
  unfold Paired PairsAt
  rw [h]
  exact hm

/-- An item goes to the end if it is the last one with null, or names none. -/
theorem Paired.withItem {item : Item} {path : Option String} (hm : m.Paired)
    (hitem : m.PairsAt m.size item) : (m.withItem item path).Paired := by
  intro i stored hstored
  have hpairs : m.PairsAt i stored := by
    rcases eq_or_last_of_getElem?_concat hstored with hold | ⟨rfl, rfl⟩
    · exact hm i stored hold
    · exact hitem
  -- what a stored item is paired with is stored before it, and stays
  intro houter
  obtain ⟨j, inner, hj, hinner, hwraps⟩ := hpairs houter
  have hlt : j < m.definitions.length := (List.getElem?_eq_some_iff.mp hinner).1
  exact ⟨j, inner, hj, (List.getElem?_append_left hlt).trans hinner, hwraps⟩

theorem pairs_withItem (m : Model) (item : Item) (path : Option String) :
    (m.withItem item path).pairs = m.pairs + item.isOuter.toNat := by
  show (m.definitions ++ [item]).countP Item.isOuter = _
  rw [List.countP_append, List.countP_singleton, pairs]
  cases item.isOuter <;> rfl

end Model

/-- What is said about items does not concern pairs. -/
theorem Item.Wraps.remark {f g : Item → Item} {outer inner : Item} {j : Nat}
    (hf : Item.Remark f) (hg : Item.Remark g) (h : outer.Wraps inner j) :
    (f outer).Wraps (g inner) j := by
  obtain ⟨_, _, _, houter⟩ := hf outer
  obtain ⟨_, _, _, hinner⟩ := hg inner
  rw [houter, hinner]
  exact ⟨h.innerName, h.nullable, h.synonym, h.inner_nullable, h.inner_innerName⟩

theorem Item.Remark.isOuter_eq {f : Item → Item} (hf : Item.Remark f) (item : Item) :
    (f item).isOuter = item.isOuter := by
  obtain ⟨_, _, _, h⟩ := hf item
  rw [h]
  rfl

theorem Item.remark_id : Item.Remark id :=
  fun item => ⟨item.docs, item.pubTypedef, item.implHeader, rfl⟩

/-- Nor does what is said about one item of a model. -/
theorem Model.Paired.withChange {m : Model} {f : Item → Item} (hm : m.Paired) (i : Nat)
    (hf : Item.Remark f) : (m.withChange i f).Paired := by
  have hremark : ∀ k, Item.Remark (if i = k then f else id) := by
    intro k
    split
    · exact hf
    · exact Item.remark_id
  have hget : ∀ k, (m.withChange i f).definitions[k]? =
      m.definitions[k]?.map (if i = k then f else id) := by
    intro k
    rw [Model.withChange, List.getElem?_modify]
    by_cases h : i = k
    · simp only [h, if_true]
      rfl
    · simp only [h, if_false]
      rfl
  intro k item hitem houter
  rw [hget] at hitem
  obtain ⟨old, hold, rfl⟩ := Option.map_eq_some_iff.mp hitem
  rw [(hremark k).isOuter_eq] at houter
  obtain ⟨j, inner, hj, hinner, hwraps⟩ := hm k old hold houter
  refine ⟨j, (if i = j then f else id) inner, hj, ?_, hwraps.remark (hremark k) (hremark j)⟩
  rw [hget, hinner, Option.map_some]

/-! ## Builds that keep pairs -/

/-- Pairs that are in order stay in order. -/
def Model.StaysPaired (m m' : Model) : Prop :=
  m.Paired → m'.Paired

instance : IsPreorder Model Model.StaysPaired where
  refl _ h := h
  trans _ _ _ h h' hm := h' (h hm)

namespace Keeps

/-- An item that names no other is stored. -/
theorem addPlain {item : Item} {path : Option String} (h : item.innerName = none) :
    Keeps Model.StaysPaired (Build.addItem item path) := by
  constructor
  intro w hm
  rcases addItem_cases item path w with ⟨e, w', hfail, hsame⟩ | ⟨name, notes, _, _, _, _, hok⟩
  · rw [hfail, hsame]
    exact hm
  · rw [hok]
    exact hm.withItem (Model.pairsAt_of_innerName_eq_none h)

theorem addPlainScalar {specName generatedName : String} {path : Option String} {scalar : Scalar} :
    Keeps Model.StaysPaired (Build.addScalar specName generatedName path scalar) :=
  addPlain rfl

theorem modifyModel_definitions {f : Model → Model}
    (h : ∀ m, (f m).definitions = m.definitions) :
    Keeps Model.StaysPaired (Build.modifyModel f) :=
  ⟨fun w hm => hm.of_definitions_eq (h w.model)⟩

theorem remarkOn (r : Ref) {f : Item → Item} (hf : Item.Remark f) :
    Keeps Model.StaysPaired (Build.modifyItem r f) := by
  refine .model fun m => .skip (.lift _) fun index => ?_
  split
  · exact ⟨fun w hm => hm.withChange _ hf⟩
  · exact .throw _

theorem pathOf (path : String) (r : Ref) :
    Keeps Model.StaysPaired (Build.registerPath path r) := by
  constructor
  intro w hm
  rcases registerPath_cases path r w with ⟨e, hfail⟩ | ⟨index, _, _, _, hok⟩
  · rw [hfail]
    exact hm
  · rw [hok]
    exact hm.of_definitions_eq rfl

end Keeps

/-! ## Builds that make pairs -/

/-- Whatever the model is, a build leaves its pairs in order. Where it answers, it has made a number
of further ones; an item that it leaves to be stored fits the end of the model and counts. -/
structure MakesPairs (k : Nat) (x : Build α) (pending : α → Option Item := fun _ => none) :
    Prop where
  keeps : Keeps Model.StaysPaired x
  fits : ∀ w a w', exec x w = (.ok a, w') →
    ∀ item, pending a = some item → w'.model.PairsAt w'.model.size item
  count : ∀ w a w', exec x w = (.ok a, w') →
    w'.model.pairs + (pending a).elim 0 (·.isOuter.toNat) = w.model.pairs + k

namespace MakesPairs

variable {k l : Nat} {pending : α → Option Item} {pending' : β → Option Item}

/-- A build that leaves every model alone makes no pair. -/
theorem still {x : Build α} (hx : Still x) : MakesPairs 0 x where
  keeps := .still hx
  fits _ _ _ _ _ h := by cases h
  count w a w' h := by
    have hsame := hx.model_eq w
    rw [h] at hsame
    rw [hsame]
    rfl

theorem pure (a : α) : MakesPairs 0 (Pure.pure a) :=
  still (.pure a)

/-- A build that fails at once answers nothing, so it makes what one likes where it answers. -/
theorem throw (e : Failure) : MakesPairs k (MonadExcept.throw e : Build α) pending where
  keeps := .throw e
  fits _ _ _ h := by cases h
  count _ _ _ h := by cases h

theorem problem (p : Problem) : MakesPairs k (Build.problem p : Build α) pending :=
  throw _

/-- An item that names no other is left to be stored. -/
theorem pureItem {item : Item} (h : item.innerName = none) :
    MakesPairs 0 (Pure.pure item : Build Item) some where
  keeps := .pure item
  fits _ _ _ hrun _ hitem := by
    cases hrun
    cases hitem
    exact Model.pairsAt_of_innerName_eq_none h
  count w _ _ hrun := by
    cases hrun
    rw [Option.elim_some, Item.isOuter, h]
    rfl

theorem ite {c : Prop} [Decidable c] {x y : Build α} (hx : MakesPairs k x pending)
    (hy : MakesPairs k y pending) : MakesPairs k (if c then x else y) pending := by
  split
  · exact hx
  · exact hy

/-- A sequence makes the pairs of its first part and those of its second. -/
theorem bind {x : Build α} {f : α → Build β} (hx : MakesPairs k x)
    (hf : ∀ a, MakesPairs l (f a) pending') : MakesPairs (k + l) (x >>= f) pending' where
  keeps := hx.keeps.bind fun a => (hf a).keeps
  fits w b w' h := by
    obtain ⟨a, u, _, hrest⟩ := of_exec_bind_ok h
    exact (hf a).fits u b w' hrest
  count w b w' h := by
    obtain ⟨a, u, hfirst, hrest⟩ := of_exec_bind_ok h
    have hcount : u.model.pairs = w.model.pairs + k := hx.count w a u hfirst
    rw [(hf a).count u b w' hrest, hcount, Nat.add_assoc]

/-- A sequence makes the pairs of its first part if its second makes none. -/
theorem bind_zero {x : Build α} {f : α → Build β} (hx : MakesPairs k x)
    (hf : ∀ a, MakesPairs 0 (f a) pending') : MakesPairs k (x >>= f) pending' :=
  bind hx hf

/-- A sequence whose first part leaves the model alone; what that part answers may be used. -/
theorem skip_answer {x : Build α} {f : α → Build β} (hx : Still x)
    (hf : ∀ a, Answers x a → MakesPairs k (f a) pending') : MakesPairs k (x >>= f) pending' where
  keeps := .skip_answer hx fun a ha => (hf a ha).keeps
  fits w b w' h := by
    obtain ⟨a, u, hfirst, hrest⟩ := of_exec_bind_ok h
    exact (hf a ⟨w, u, hfirst⟩).fits u b w' hrest
  count w b w' h := by
    obtain ⟨a, u, hfirst, hrest⟩ := of_exec_bind_ok h
    have hsame := hx.model_eq w
    rw [hfirst] at hsame
    rw [(hf a ⟨w, u, hfirst⟩).count u b w' hrest, hsame]

theorem skip {x : Build α} {f : α → Build β} (hx : Still x)
    (hf : ∀ a, MakesPairs k (f a) pending') : MakesPairs k (x >>= f) pending' :=
  skip_answer hx fun a _ => hf a

theorem model {f : Model → Build β} (hf : ∀ m, MakesPairs k (f m) pending') :
    MakesPairs k (Build.model >>= f) pending' :=
  skip .model hf

/-- A build for each element makes the pairs of all of them. -/
theorem mapM {f : α → Build β} {k : α → Nat} (hf : ∀ a, MakesPairs (k a) (f a)) (l : List α) :
    MakesPairs (l.map k).sum (l.mapM f) := by
  induction l with
  | nil => exact pure _
  | cons a l ih =>
    rw [List.mapM_cons, List.map_cons, List.sum_cons]
    exact bind (hf a) fun _ => bind ih fun _ => pure _

theorem addPlain {item : Item} {path : Option String} (h : item.innerName = none) :
    MakesPairs 0 (Build.addItem item path) where
  keeps := .addPlain h
  fits _ _ _ _ _ hitem := by cases hitem
  count w r w' hrun := by
    obtain ⟨name, _, hmodel⟩ := of_exec_addItem hrun
    rw [hmodel, Model.pairs_withItem, Item.isOuter, h]
    rfl

theorem addScalar {specName generatedName : String} {path : Option String} {scalar : Scalar} :
    MakesPairs 0 (Build.addScalar specName generatedName path scalar) :=
  addPlain rfl

end MakesPairs

/-- A change of an item that leaves a pair a pair. -/
def Item.KeepsPair (f : Item → Item) : Prop :=
  ∀ item : Item, (f item).innerName = item.innerName ∧
    (item.isOuter = true → (f item).nullable = item.nullable ∧ (f item).shape = item.shape)

theorem Item.KeepsPair.isOuter_eq {f : Item → Item} (hf : Item.KeepsPair f) (item : Item) :
    (f item).isOuter = item.isOuter := by
  rw [Item.isOuter, Item.isOuter, (hf item).1]

theorem Item.KeepsPair.pairsAt {f : Item → Item} {m : Model} {i : Nat} {item : Item}
    (hf : Item.KeepsPair f) (h : m.PairsAt i item) : m.PairsAt i (f item) := by
  intro houter
  rw [hf.isOuter_eq] at houter
  obtain ⟨j, inner, hj, hinner, hwraps⟩ := h houter
  obtain ⟨hname, hrest⟩ := hf item
  obtain ⟨hnullable, hshape⟩ := hrest houter
  refine ⟨j, inner, hj, hinner, hname.trans hwraps.innerName, hnullable.trans hwraps.nullable,
    ?_, hwraps.inner_nullable, hwraps.inner_innerName⟩
  rw [hshape]
  exact hwraps.synonym

/-- An item is found under a name of its own once it is stored, whatever name was proposed. -/
theorem Item.keepsPair_rename (name : String) :
    Item.KeepsPair fun item => { item with generatedName := name } :=
  fun _ => ⟨rfl, fun _ => ⟨rfl, rfl⟩⟩

theorem Item.keepsPair_id : Item.KeepsPair id :=
  fun _ => ⟨rfl, fun _ => ⟨rfl, rfl⟩⟩

theorem Item.KeepsPair.comp {f g : Item → Item} (hf : Item.KeepsPair f) (hg : Item.KeepsPair g) :
    Item.KeepsPair (f ∘ g) := by
  intro item
  refine ⟨(hf (g item)).1.trans (hg item).1, fun houter => ?_⟩
  have hrest := (hf (g item)).2 (by rw [hg.isOuter_eq]; exact houter)
  exact ⟨hrest.1.trans ((hg item).2 houter).1, hrest.2.trans ((hg item).2 houter).2⟩

theorem Item.KeepsPair.ite {c : Prop} [Decidable c] {f g : Item → Item} (hf : Item.KeepsPair f)
    (hg : Item.KeepsPair g) : Item.KeepsPair fun item => if c then f item else g item := by
  intro item
  by_cases h : c
  · simp only [if_pos h]
    exact hf item
  · simp only [if_neg h]
    exact hg item

theorem Item.Remark.keepsPair {f : Item → Item} (hf : Item.Remark f) : Item.KeepsPair f := by
  intro item
  obtain ⟨_, _, _, h⟩ := hf item
  rw [h]
  exact ⟨rfl, fun _ => ⟨rfl, rfl⟩⟩

/-- **The item that a build leaves to be stored is stored next**, and what counted already is a pair
of the model now. -/
theorem MakesPairs.store {k : Nat} {x : Build Item} {f : Item → Item} {path : Option String}
    (hx : MakesPairs k x some) (hf : Item.KeepsPair f) :
    MakesPairs k (x >>= fun item => Build.addItem (f item) path) where
  keeps := by
    constructor
    intro w hm
    have hkept := hx.keeps.runs w hm
    rcases h : exec x w with ⟨e | item, u⟩
    · rw [exec_bind_error h]
      rw [h] at hkept
      exact hkept
    · rw [exec_bind_ok h]
      rw [h] at hkept
      rcases addItem_cases (f item) path u with ⟨e, u', hfail, hsame⟩ | ⟨name, _, _, _, _, _, hok⟩
      · rw [hfail, hsame]
        exact hkept
      · rw [hok]
        have hstored := (Item.keepsPair_rename name).comp hf
        exact hkept.withItem (hstored.pairsAt (hx.fits w item u h item rfl))
  fits _ _ _ _ _ hitem := by cases hitem
  count w r w' h := by
    obtain ⟨item, u, hitem, hadd⟩ := of_exec_bind_ok h
    obtain ⟨name, _, hmodel⟩ := of_exec_addItem hadd
    have hcount := hx.count w item u hitem
    rw [Option.elim_some, ← hf.isOuter_eq item] at hcount
    rw [hmodel, Model.pairs_withItem]
    exact hcount

end TypedApi
