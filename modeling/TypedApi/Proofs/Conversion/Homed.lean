import TypedApi.Proofs.Conversion.Appending
import TypedApi.Proofs.Conversion.Stages
import TypedApi.Proofs.Graph.Alias
import TypedApi.Proofs.Operation.Touches
/-!
Paths and the aliases behind them.

A path is registered for an item. If that item is an alias, the reason is in the
document: the component of the path stands for another path, which is what the item
is another name for, or it admits null besides something that is no alias. Given a
relation between paths that says what stands for what, `Homed` says this of all
paths of a model. It is said of a model under construction, whose references are
still paths or indices, so a path that is not registered yet is no obstacle.

`Houses` is the judgement for builds: a build that starts on such a model leaves such
a model, and its answer is in a relation to it.
-/

set_option autoImplicit false

namespace TypedApi

open Build
open Relation (ReflTransGen TransGen)

variable {α β : Type} {N : String → String → Prop} {m m' : Model} {path next : String}
  {index : Int} {shape : Shape} {r t : Ref}

namespace Model

/-! ## Items and their shapes -/

/-- The item at an index has a shape. -/
def ShapeAt (m : Model) (index : Int) (shape : Shape) : Prop :=
  ∃ (i : Nat) (item : Item), index = i ∧ m.definitions[i]? = some item ∧ item.shape = shape

/-- A reference leads to an item that is no alias. -/
def Halts (m : Model) (t : Ref) : Prop :=
  ∃ index shape, t = .back index ∧ m.ShapeAt index shape ∧ shape.target? = none

/-- What a reference to a path has become: it is kept until the path is registered, and from then on
it is an index. -/
def Becomes (m : Model) (path : String) (t : Ref) : Prop :=
  t = .forward path ∨ ∃ index, t = .back index ∧ m.namedReferences.get? path = some index

/-- A shape that an item with a path may have: it is no alias, or the alias of something that is
none, or it is an alias of a path that the path stands for. -/
def Suits (N : String → String → Prop) (m : Model) (path : String) (shape : Shape) : Prop :=
  ∀ t, shape.target? = some t →
    m.Halts t ∨ ∃ next, TransGen N path next ∧ m.Becomes next t

/-- A reference to an item that may have a path. -/
def Serves (N : String → String → Prop) (m : Model) (path : String) (r : Ref) : Prop :=
  ∃ index shape, r = .back index ∧ m.ShapeAt index shape ∧ m.Suits N path shape

/-- Every path that is registered leads to an item that may have it. -/
def Homed (N : String → String → Prop) (m : Model) : Prop :=
  ∀ path index, m.namedReferences.get? path = some index →
    ∃ shape, m.ShapeAt index shape ∧ m.Suits N path shape

/-! ## Steps -/

/-- Items keep their shapes. -/
theorem ShapeAt.steps (h : m.ShapeAt index shape) (hsteps : Steps .anything m m') :
    m'.ShapeAt index shape := by
  obtain ⟨i, item, hindex, hitem, rfl⟩ := h
  obtain ⟨item', hitem', _, hshape⟩ := hsteps.kept.definitions i item hitem
  rcases hshape with ⟨_, heq⟩ | ⟨hopen, hfinal, _⟩
  · exact ⟨i, item', hindex, hitem', heq⟩
  · rw [hsteps.finalized_eq, hopen] at hfinal
    cases hfinal

theorem Halts.steps (h : m.Halts t) (hsteps : Steps .anything m m') : m'.Halts t := by
  obtain ⟨index, shape, ht, hat, hnone⟩ := h
  exact ⟨index, shape, ht, hat.steps hsteps, hnone⟩

theorem Becomes.steps (h : m.Becomes path t) (hsteps : Steps .anything m m') :
    m'.Becomes path t := by
  rcases h with hforward | ⟨index, ht, hget⟩
  · exact .inl hforward
  · exact .inr ⟨index, ht, hsteps.get?_namedReferences hget⟩

theorem Suits.steps (h : m.Suits N path shape) (hsteps : Steps .anything m m') :
    m'.Suits N path shape := by
  intro t ht
  rcases h t ht with hhalts | ⟨next, hnext, hbecomes⟩
  · exact .inl (hhalts.steps hsteps)
  · exact .inr ⟨next, hnext, hbecomes.steps hsteps⟩

theorem Serves.steps (h : m.Serves N path r) (hsteps : Steps .anything m m') :
    m'.Serves N path r := by
  obtain ⟨index, shape, hr, hat, hsuits⟩ := h
  exact ⟨index, shape, hr, hat.steps hsteps, hsuits.steps hsteps⟩

/-- Steps keep paths at home if every path that is new is. -/
theorem Homed.steps (h : m.Homed N) (hsteps : Steps .anything m m')
    (hnew : ∀ path index, m'.namedReferences.get? path = some index →
      path ∈ m.namedReferences.keys ∨ ∃ shape, m'.ShapeAt index shape ∧ m'.Suits N path shape) :
    m'.Homed N := by
  intro path index hpath
  rcases hnew path index hpath with hold | hhome
  · obtain ⟨old, hget⟩ := Option.ne_none_iff_exists'.mp fun hnone =>
      Table.get?_eq_none_iff.mp hnone hold
    -- a path keeps its index, so it is still the one that was at home
    cases hpath.symm.trans (hsteps.get?_namedReferences hget)
    obtain ⟨shape, hat, hsuits⟩ := h path index hget
    exact ⟨shape, hat.steps hsteps, hsuits.steps hsteps⟩
  · exact hhome

/-- Changes that register no path keep the paths at home. -/
theorem Homed.touches (h : m.Homed N) (hsteps : Steps .anything m m')
    (htouches : m.Touches (fun _ => False) m') : m'.Homed N := by
  refine h.steps hsteps fun path index hpath => .inl ?_
  have hkey := List.mem_map_of_mem (f := Prod.fst) (Table.mem_of_get?_eq_some hpath)
  exact (htouches.mem_paths hkey).resolve_right id

/-! ## What may have a path -/

/-- What stands for a path may have the item of the path. -/
theorem Suits.head (hstands : N path next) (h : m.Suits N next shape) : m.Suits N path shape := by
  intro t ht
  rcases h t ht with hhalts | ⟨last, hlast, hbecomes⟩
  · exact .inl hhalts
  · exact .inr ⟨last, hlast.head hstands, hbecomes⟩

/-- What stands for a path may have an alias of it. -/
theorem suits_of_becomes (hstands : N path next) (htarget : shape.target? = some t)
    (h : m.Becomes next t) : m.Suits N path shape := by
  intro t' ht'
  cases htarget.symm.trans ht'
  exact .inr ⟨next, .single hstands, h⟩

theorem suits_of_halts (htarget : shape.target? = some t) (h : m.Halts t) :
    m.Suits N path shape := by
  intro t' ht'
  cases htarget.symm.trans ht'
  exact .inl h

theorem suits_of_proper (h : shape.target? = none) : m.Suits N path shape := by
  intro t ht
  rw [h] at ht
  cases ht

/-- What stands for a registered path may have its item. -/
theorem Homed.serves (h : m.Homed N) (hstands : N path next)
    (hnext : m.namedReferences.get? next = some index) : m.Serves N path (.back index) := by
  obtain ⟨shape, hat, hsuits⟩ := h next index hnext
  exact ⟨index, shape, rfl, hat, hsuits.head hstands⟩

end Model

/-! ## The judgement -/

/-- On a model whose paths are at home, a build takes steps only and leaves the paths at home, and
what it answers is in the given relation to the model afterwards. -/
structure Houses (N : String → String → Prop) (m : Model) (x : Build α) (Q : α → Model → Prop) :
    Prop where
  runs : m.Homed N → ∀ w, w.model = m →
    Steps .anything m (exec x w).2.model ∧ (exec x w).2.model.Homed N ∧
      ∀ a, (exec x w).1 = .ok a → Q a (exec x w).2.model

namespace Houses

variable {x : Build α} {f : α → Build β} {Q : α → Model → Prop} {R : β → Model → Prop}

/-- What is known of an answer may be put in another way, given the steps to the model afterwards,
whose paths are at home. -/
theorem weaken {Q' : α → Model → Prop} (hx : Houses N m x Q)
    (h : ∀ a m', Steps .anything m m' → m'.Homed N → Q a m' → Q' a m') : Houses N m x Q' := by
  constructor
  intro hm w hw
  obtain ⟨hsteps, hhomed, hQ⟩ := hx.runs hm w hw
  exact ⟨hsteps, hhomed, fun a ha => h a _ hsteps hhomed (hQ a ha)⟩

/-- What every run shows of an answer is known of it as well. -/
theorem with_runs {P : α → Model → Prop} (hx : Houses N m x Q)
    (h : ∀ w w' a, w.model = m → exec x w = (.ok a, w') → P a w'.model) :
    Houses N m x fun a m' => Q a m' ∧ P a m' := by
  constructor
  intro hm w hw
  obtain ⟨hsteps, hhomed, hQ⟩ := hx.runs hm w hw
  exact ⟨hsteps, hhomed, fun a ha => ⟨hQ a ha, h w _ a hw (Prod.ext ha rfl)⟩⟩

/-- That the paths are at home may be used at any point. -/
theorem homed (h : m.Homed N → Houses N m x Q) : Houses N m x Q :=
  ⟨fun hm => (h hm).runs hm⟩

theorem pure {a : α} (h : Q a m) : Houses N m (Pure.pure a) Q := by
  constructor
  rintro hm w rfl
  exact ⟨.refl, hm, fun b hb => by cases hb; exact h⟩

theorem throw {e : Failure} : Houses N m (MonadExcept.throw e : Build α) Q := by
  constructor
  rintro hm w rfl
  exact ⟨.refl, hm, fun a ha => by cases ha⟩

theorem problem {p : Problem} : Houses N m (Build.problem p : Build α) Q :=
  throw

/-- A sequence: the second part starts on the model that the first one leaves. -/
theorem bind (hx : Houses N m x Q)
    (hf : ∀ a m', Steps .anything m m' → Q a m' → Houses N m' (f a) R) :
    Houses N m (x >>= f) R := by
  constructor
  intro hm w hw
  obtain ⟨hsteps, hhomed, hQ⟩ := hx.runs hm w hw
  rw [exec_bind]
  rcases h : exec x w with ⟨_ | a, u⟩
  · rw [h] at hsteps hhomed
    exact ⟨hsteps, hhomed, fun b hb => by cases hb⟩
  · rw [h] at hsteps hhomed hQ
    obtain ⟨hrest, hend, hR⟩ := (hf a u.model hsteps (hQ a rfl)).runs hhomed u rfl
    exact ⟨hsteps.trans hrest, hend, hR⟩

/-- A sequence whose first part leaves the model alone; what that part answers may be used. -/
theorem skip_answer (hx : Still x) (hf : ∀ a, Answers x a → Houses N m (f a) R) :
    Houses N m (x >>= f) R := by
  constructor
  intro hm w hw
  have hstill := hx.model_eq w
  rw [hw] at hstill
  rw [exec_bind]
  rcases h : exec x w with ⟨_ | a, u⟩
  · rw [h] at hstill
    exact ⟨by rw [hstill], by rw [hstill]; exact hm, fun b hb => by cases hb⟩
  · rw [h] at hstill
    exact (hf a ⟨w, u, h⟩).runs hm u hstill

/-- A sequence whose first part leaves the model alone. -/
theorem skip (hx : Still x) (hf : ∀ a, Houses N m (f a) R) : Houses N m (x >>= f) R :=
  skip_answer hx fun a _ => hf a

/-- A sequence that starts by reading the model. -/
theorem model {f : Model → Build β} (hf : Houses N m (f m) R) :
    Houses N m (Build.model >>= f) R := by
  constructor
  rintro hm w rfl
  exact hf.runs hm w rfl

theorem ite {c : Prop} [Decidable c] {x y : Build α} (hx : c → Houses N m x Q)
    (hy : ¬c → Houses N m y Q) : Houses N m (if c then x else y) Q := by
  split
  · exact hx ‹_›
  · exact hy ‹_›

/-- A build that takes steps and registers no path leaves the paths at home. What it answers is read
off its runs. -/
theorem of_touches {Q' : α → Model → Prop} (hsteps : Along .anything m x Q')
    (htouches : Keeps (Model.Touches fun _ => False) x)
    (hQ : ∀ w w' a, w.model = m → exec x w = (.ok a, w') → Q a w'.model) :
    Houses N m x Q := by
  constructor
  rintro hm w rfl
  obtain ⟨hsteps, _⟩ := hsteps.runs (Call.sound_anything _) w rfl
  refine ⟨hsteps, hm.touches hsteps (htouches.runs w), fun a ha => ?_⟩
  exact hQ w _ a rfl (Prod.ext ha rfl)

/-! ## The primitives -/

/-- An item is added, under a path that may have it. -/
theorem addItem {item : Item} {own : Option String}
    (h : ∀ p, own = some p → m.Suits N p item.shape) :
    Houses N m (Build.addItem item own) fun r m' =>
      ∃ index, r = .back index ∧ m'.ShapeAt index item.shape ∧
        ∀ p, own = some p → m'.namedReferences.get? p = some index := by
  constructor
  rintro hm w rfl
  have hsteps : Steps .anything w.model (exec (Build.addItem item own) w).2.model :=
    ((Along.addItem (Standard.fits_anything _ _)).runs (Call.sound_anything _) w rfl).1
  rcases addItem_cases item own w with ⟨e, w', hfail, hsame⟩ | ⟨name, notes, _, _, _, hfree, hok⟩
  · rw [hfail]
    exact ⟨by rw [hsame], by rw [hsame]; exact hm, fun a ha => by cases ha⟩
  rw [hok] at hsteps ⊢
  have hat : (w.model.withItem { item with generatedName := name } own).ShapeAt w.model.size
      item.shape :=
    ⟨w.model.size, _, rfl, List.getElem?_concat_length, rfl⟩
  have hown : ∀ p, own = some p →
      (w.model.withItem { item with generatedName := name } own).namedReferences.get? p =
        some (w.model.size : Int) := by
    intro p hp
    rw [hp]
    exact Table.get?_insert_self _ _ _
  refine ⟨hsteps, hm.steps hsteps fun path index hpath => ?_, fun r hr => ?_⟩
  · have hkey := List.mem_map_of_mem (f := Prod.fst) (Table.mem_of_get?_eq_some hpath)
    cases own with
    | none => exact .inl hkey
    | some p =>
      rcases Table.mem_keys_insert hkey with heq | hold
      -- the only new path is that of the item
      · cases (heq : path = p)
        cases hpath.symm.trans (hown path rfl)
        exact .inr ⟨item.shape, hat, (h path rfl).steps hsteps⟩
      · exact .inl hold
  · cases hr
    exact ⟨w.model.size, rfl, hat, hown⟩

/-- An item is added that may have a path, under that path or under none. -/
theorem addItem_serves {item : Item} {own : Option String} (hown : ∀ p, own = some p → p = path)
    (h : m.Suits N path item.shape) :
    Houses N m (Build.addItem item own) fun r m' => m'.Serves N path r := by
  refine (addItem fun p hp => hown p hp ▸ h).weaken fun r m' hsteps _ hr => ?_
  obtain ⟨index, hr, hat, _⟩ := hr
  exact ⟨index, item.shape, hr, hat, h.steps hsteps⟩

/-- A path is registered for an item that may have it. -/
theorem registerPath (h : m.Serves N path r) :
    Houses N m (Build.registerPath path r) fun _ m' =>
      ∀ index, r = .back index → m'.namedReferences.get? path = some index := by
  constructor
  rintro hm w rfl
  have hsteps : Steps .anything w.model (exec (Build.registerPath path r) w).2.model :=
    ((Along.registerPath fun _ _ => trivial).runs (Call.sound_anything _) w rfl).1
  obtain ⟨index, shape, rfl, hat, hsuits⟩ := h
  rcases registerPath_cases path (.back index) w with ⟨e, hfail⟩ | ⟨own, hown, _, _, hok⟩
  · rw [hfail]
    exact ⟨.refl, hm, fun a ha => by cases ha⟩
  cases hown
  rw [hok] at hsteps ⊢
  have hget : (w.model.withPath path index).namedReferences.get? path = some index :=
    Table.get?_insert_self _ _ _
  refine ⟨hsteps, hm.steps hsteps fun other index' hother => ?_, fun _ _ index' heq => ?_⟩
  · have hkey := List.mem_map_of_mem (f := Prod.fst) (Table.mem_of_get?_eq_some hother)
    rcases Table.mem_keys_insert hkey with heq | hold
    · cases (heq : other = path)
      cases hother.symm.trans hget
      exact .inr ⟨shape, hat.steps hsteps, hsuits.steps hsteps⟩
    · exact .inl hold
  · cases heq
    exact hget

theorem modifyItem {f : Item → Item} (hf : Item.Remark f) (hmark : Item.KeepsMark f) :
    Houses N m (Build.modifyItem r f) fun _ _ => True :=
  of_touches (.modifyItem hf) (.modifyItem r hmark) fun _ _ _ _ _ => trivial

/-- What a lookup answers is what the path leads to. -/
theorem named : Houses N m (Build.named path) fun r m' =>
    ∃ index, r = .back index ∧ m'.namedReferences.get? path = some index := by
  refine .model ?_
  rw [Model.named]
  split
  · exact .pure ⟨_, rfl, ‹_›⟩
  · exact .throw

/-- A reference shares the item of what it stands for. -/
theorem namedBy {reference : Document} (hstands : ∀ next, reference = .text next → N path next) :
    Houses N m (Build.namedBy reference) fun r m' => m'.Serves N path r := by
  constructor
  rintro hm w rfl
  have hsteps : Steps .anything w.model (exec (Build.namedBy reference) w).2.model :=
    (Along.namedBy.runs (Call.sound_anything _) w rfl).1
  refine ⟨hsteps, hm.touches hsteps ((Keeps.namedBy _).runs w), fun r hr => ?_⟩
  have hexec : exec (Build.namedBy reference) w = (.ok r, (exec (Build.namedBy reference) w).2) :=
    Prod.ext hr rfl
  obtain ⟨next, index, rfl, hget, rfl, hsame⟩ := of_exec_namedBy hexec
  rw [hsame]
  exact hm.serves (hstands next rfl) hget

end Houses

end TypedApi
