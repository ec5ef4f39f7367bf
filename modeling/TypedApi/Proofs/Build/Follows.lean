import TypedApi.Proofs.Build.Along
import TypedApi.Proofs.Graph.Finish
import TypedApi.Proofs.Name.Safe
/-!
Builds that follow a computation without a model.

Names, and the places of items, depend on everything that a model holds
already; what a build comes to otherwise may not. `Follows` compares a build
with a computation `v` that knows no model. On every model of a given size
that is ready for it, the build fails with a problem of the same family as `v`,
or answers as `v` does and appends some items. How the answers and the items
fit together is said by a relation, in which only the count of the items that
were there before may occur.
-/

set_option autoImplicit false

namespace TypedApi

open Build

variable {α β γ δ : Type}

/-! ## Ready models -/

/-- Where a path leads, by a table of registered paths. -/
def leadsTo (paths : Table Int) (path : String) : Ref :=
  match paths.get? path with
  | some index => .back index
  | none => .forward path

/-- A workbench on which schemas are lowered: its model is not finished, and no documentation is
fetched. -/
structure Ready (bounded : Bool) (paths : Table Int) (n : Nat) (w : Workbench) : Prop where
  unfinished : w.model.finalized = false
  bounded : w.model.boundedIntegers = bounded
  paths : w.model.namedReferences = paths
  size : w.model.size = n
  offline : w.docs = none

/-- Some items are appended, and but for the index of names nothing else is changed. -/
structure Appends (w w' : Workbench) (new : List Item) : Prop where
  model : w'.model =
    { w.model with definitions := w.model.definitions ++ new, items := w'.model.items }
  docs : w'.docs = w.docs

variable {bounded : Bool} {paths : Table Int} {n : Nat} {w w' w'' : Workbench}
  {new new' : List Item}

theorem Ready.appends (hw : Ready bounded paths n w) (h : Appends w w' new) :
    Ready bounded paths (n + new.length) w' := by
  have hmodel := h.model
  refine ⟨?_, ?_, ?_, ?_, h.docs.trans hw.offline⟩
  · rw [hmodel]
    exact hw.unfinished
  · rw [hmodel]
    exact hw.bounded
  · rw [hmodel]
    exact hw.paths
  · rw [hmodel, ← hw.size]
    simp [Model.size]

theorem Appends.refl (w : Workbench) : Appends w w [] :=
  ⟨by simp, rfl⟩

theorem Appends.trans (h : Appends w w' new) (h' : Appends w' w'' new') :
    Appends w w'' (new ++ new') := by
  refine ⟨?_, h'.docs.trans h.docs⟩
  rw [h'.model, h.model]
  simp

/-- Remarks are not part of the model. -/
theorem Appends.of_notes {notes : List Note} (h : Appends { w with notes := notes } w' new) :
    Appends w w' new :=
  ⟨h.model, h.docs⟩

/-! ## Following -/

/-- A build and a computation that answers without a model: on every model of a size that is ready,
both fail with the same family of problems, or both answer and the build appends items. -/
structure Follows (bounded : Bool) (paths : Table Int) (n : Nat) (x : Build α)
    (v : Except ProblemKind β) (R : List Item → α → β → Prop) : Prop where
  runs : ∀ w, Ready bounded paths n w →
    (∀ kind, v = .error kind → ∃ e, (exec x w).1 = .error e ∧ e.problem.kind = kind) ∧
    ∀ b, v = .ok b → ∃ a new, (exec x w).1 = .ok a ∧ Appends w (exec x w).2 new ∧ R new a b

/-- A build that answers as a computation does, and leaves everything alone. -/
structure Plain (x : Build α) (v : Except ProblemKind α) : Prop where
  runs : ∀ w, (∃ kind, v = .error kind ∧ ∃ e, exec x w = (.error e, w) ∧ e.problem.kind = kind) ∨
    ∃ a, v = .ok a ∧ exec x w = (.ok a, w)

/-- An answer that is missing because the document is malformed. -/
def need (o : Option α) : Except ProblemKind α :=
  match o with
  | some a => .ok a
  | none => .error .malformed

namespace Plain

theorem pure (a : α) : Plain (Pure.pure a) (.ok a) :=
  ⟨fun _ => .inr ⟨a, rfl, rfl⟩⟩

theorem throw (e : Failure) : Plain (MonadExcept.throw e : Build α) (.error e.problem.kind) :=
  ⟨fun _ => .inl ⟨_, rfl, e, rfl, rfl⟩⟩

theorem problem (p : Problem) : Plain (Build.problem p : Build α) (.error p.kind) :=
  throw _

theorem require (o : Option α) : Plain (Build.require o) (need o) := by
  cases o with
  | none => exact throw _
  | some a => exact pure a

theorem field (d : Document) (key : String) : Plain (Build.field d key) (need (d.get? key)) :=
  require _

theorem bind {x : Build α} {f : α → Build β} {v : Except ProblemKind α}
    {g : α → Except ProblemKind β} (hx : Plain x v) (hf : ∀ a, Plain (f a) (g a)) :
    Plain (x >>= f) (v >>= g) := by
  constructor
  intro w
  rcases hx.runs w with ⟨kind, rfl, e, he, hkind⟩ | ⟨a, rfl, ha⟩
  · exact .inl ⟨kind, rfl, e, exec_bind_error he, hkind⟩
  · rw [exec_bind_ok ha]
    exact (hf a).runs w

theorem ite {c : Prop} [Decidable c] {x y : Build α} {u v : Except ProblemKind α}
    (hx : c → Plain x u) (hy : ¬c → Plain y v) :
    Plain (if c then x else y) (if c then u else v) := by
  split
  · exact hx ‹_›
  · exact hy ‹_›

end Plain

namespace Follows

variable {R : List Item → α → β → Prop}

/-! ## Rules -/

theorem weaken {x : Build α} {v : Except ProblemKind β} {Q : List Item → α → β → Prop}
    (hx : Follows bounded paths n x v Q) (h : ∀ new a b, Q new a b → R new a b) :
    Follows bounded paths n x v R := by
  constructor
  intro w hw
  refine ⟨(hx.runs w hw).1, ?_⟩
  intro b hb
  obtain ⟨a, new, ha, happends, hQ⟩ := (hx.runs w hw).2 b hb
  exact ⟨a, new, ha, happends, h new a b hQ⟩

theorem pure {a : α} {b : β} (h : R [] a b) :
    Follows bounded paths n (Pure.pure a) (.ok b) R := by
  constructor
  intro w _
  constructor
  · intro kind hkind
    cases hkind
  · intro b' hb
    cases hb
    exact ⟨a, [], rfl, .refl w, h⟩

theorem throw {e : Failure} :
    Follows bounded paths n (MonadExcept.throw e : Build α) (.error e.problem.kind : Except _ β)
      R := by
  constructor
  intro w _
  constructor
  · intro kind hkind
    cases hkind
    exact ⟨e, rfl, rfl⟩
  · intro b hb
    cases hb

theorem problem {p : Problem} :
    Follows bounded paths n (Build.problem p : Build α) (.error p.kind : Except _ β) R :=
  throw

/-- A sequence: the items of the second part stand after those of the first. -/
theorem bind {x : Build α} {f : α → Build γ} {v : Except ProblemKind β}
    {g : β → Except ProblemKind δ} {Q : List Item → γ → δ → Prop}
    (hx : Follows bounded paths n x v R)
    (hf : ∀ a b new, R new a b →
      Follows bounded paths (n + new.length) (f a) (g b) fun new' c d => Q (new ++ new') c d) :
    Follows bounded paths n (x >>= f) (v >>= g) Q := by
  constructor
  intro w hw
  obtain ⟨herror, hok⟩ := hx.runs w hw
  cases v with
  | error kind =>
    obtain ⟨e, he, hkind⟩ := herror kind rfl
    rcases hexec : exec x w with ⟨result, w'⟩
    rw [hexec] at he
    cases he
    rw [exec_bind_error hexec]
    constructor
    · intro kind' hkind'
      cases hkind'
      exact ⟨e, rfl, hkind⟩
    · intro d hd
      cases hd
  | ok b =>
    obtain ⟨a, new, ha, happends, hR⟩ := hok b rfl
    rcases hexec : exec x w with ⟨result, w'⟩
    rw [hexec] at ha happends
    cases ha
    rw [exec_bind_ok hexec]
    -- what the first part leaves is ready again, with the items that it appended counted
    obtain ⟨herror', hok'⟩ := (hf a b new hR).runs w' (hw.appends happends)
    refine ⟨herror', ?_⟩
    intro d hd
    obtain ⟨c, new', hc, happends', hQ⟩ := hok' d hd
    exact ⟨c, new ++ new', hc, happends.trans happends', hQ⟩

/-- A sequence whose first part does not touch the model. -/
theorem plain {x : Build γ} {f : γ → Build α} {v : Except ProblemKind γ}
    {g : γ → Except ProblemKind β} (hx : Plain x v)
    (hf : ∀ c, Follows bounded paths n (f c) (g c) R) :
    Follows bounded paths n (x >>= f) (v >>= g) R := by
  constructor
  intro w hw
  rcases hx.runs w with ⟨kind, rfl, e, he, hkind⟩ | ⟨c, rfl, hc⟩
  · rw [exec_bind_error he]
    constructor
    · intro kind' hkind'
      cases hkind'
      exact ⟨e, rfl, hkind⟩
    · intro b hb
      cases hb
  · rw [exec_bind_ok hc]
    exact (hf c).runs w hw

theorem ite {c : Prop} [Decidable c] {x y : Build α} {u v : Except ProblemKind β}
    (hx : c → Follows bounded paths n x u R) (hy : ¬c → Follows bounded paths n y v R) :
    Follows bounded paths n (if c then x else y) (if c then u else v) R := by
  split
  · exact hx ‹_›
  · exact hy ‹_›

/-- A sequence that starts by reading the model. -/
theorem model {f : Model → Build α} {v : Except ProblemKind β}
    (hf : ∀ m : Model, m.boundedIntegers = bounded → m.namedReferences = paths → m.size = n →
      Follows bounded paths n (f m) v R) :
    Follows bounded paths n (Build.model >>= f) v R := by
  constructor
  intro w hw
  rw [exec_bind_model]
  exact (hf w.model hw.bounded hw.paths hw.size).runs w hw

/-- Remarks do not count: what is made before them is followed just as well. -/
theorem runs_notes {x : Build α} {v : Except ProblemKind β} (hx : Follows bounded paths n x v R)
    (hw : Ready bounded paths n w) (notes : List Note) :
    (∀ kind, v = .error kind →
      ∃ e, (exec x { w with notes := notes }).1 = .error e ∧ e.problem.kind = kind) ∧
    ∀ b, v = .ok b → ∃ a new, (exec x { w with notes := notes }).1 = .ok a ∧
      Appends w (exec x { w with notes := notes }).2 new ∧ R new a b := by
  obtain ⟨herror, hok⟩ := hx.runs { w with notes := notes } ⟨hw.1, hw.2, hw.3, hw.4, hw.5⟩
  refine ⟨herror, ?_⟩
  intro b hb
  obtain ⟨a, new, ha, happends, hR⟩ := hok b hb
  exact ⟨a, new, ha, happends.of_notes, hR⟩

/-- A sequence that starts with a remark. -/
theorem note {remark : Note} {f : Unit → Build α} {v : Except ProblemKind β}
    (hf : Follows bounded paths n (f ()) v R) :
    Follows bounded paths n (Build.note remark >>= f) v R := by
  constructor
  intro w hw
  rw [exec_bind_ok (exec_note remark w)]
  exact hf.runs_notes hw _

/-- A sequence that starts by making a name free: nothing but the name depends on the model. -/
theorem deconflict {name : String} {f : String → Build α} {v : Except ProblemKind β}
    (hf : ∀ name, Follows bounded paths n (f name) v R) :
    Follows bounded paths n (Build.deconflict name >>= f) v R := by
  constructor
  intro w hw
  obtain ⟨notes, hname⟩ := exec_deconflict name w
  rw [exec_bind_ok hname]
  exact (hf (Name.deconflict name w.model.items.keys)).runs_notes hw notes

/-- A sequence that starts by asking for the name of an item that is there. -/
theorem nameOf {i : Nat} {f : String → Build α} {v : Except ProblemKind β} (hi : i < n)
    (hf : ∀ name, Follows bounded paths n (f name) v R) :
    Follows bounded paths n
      (Build.model >>= fun m => Build.lift (m.nameOf (.back i)) >>= f) v R := by
  refine model fun m _ _ hsize => ?_
  -- the lookup cannot fail, whatever the model: there are more than `i` items
  have hrange : m.inRange (i : Int) = true := Model.inRange_iff.mpr ⟨by omega, by omega⟩
  have hindex : m.indexOf (.back i) = .ok (i : Int) := by rw [Model.indexOf, if_pos hrange]
  obtain ⟨name, hname⟩ := Model.nameOf_ok hindex (Model.inRange_iff.mp hrange)
  rw [hname]
  exact hf name

/-- How the answers and the items of a list of builds fit together: the items of each stand after
those of the ones before. -/
def Chain (R : Nat → List Item → α → β → Prop) : Nat → List Item → List α → List β → Prop
  | _, new, [], [] => new = []
  | n, new, a :: as, b :: bs =>
    ∃ first rest, new = first ++ rest ∧ R n first a b ∧ Chain R (n + first.length) rest as bs
  | _, _, _, _ => False

/-- One build for each element of a list. -/
theorem mapM {R : Nat → List Item → β → δ → Prop} {f : α → Build β}
    {g : α → Except ProblemKind δ} {l : List α}
    (hf : ∀ a ∈ l, ∀ n, Follows bounded paths n (f a) (g a) (R n)) :
    Follows bounded paths n (l.mapM f) (l.mapM g) (Chain R n) := by
  induction l generalizing n with
  | nil => exact pure (show ([] : List Item) = [] from rfl)
  | cons a l ih =>
    rw [List.mapM_cons, List.mapM_cons]
    refine bind (hf a List.mem_cons_self n) fun b d new hR => ?_
    refine bind (ih fun a' ha' => hf a' (List.mem_cons_of_mem _ ha')) fun bs ds rest hrest => ?_
    exact pure ⟨new, rest, by simp, hR, hrest⟩

/-- **Adding an item** under no path always succeeds while the model is not finished: the name that
is made for it is free. -/
theorem addItem {item : Item} {b : β} :
    Follows bounded paths n (Build.addItem item) (.ok b)
      fun new r b' =>
        b' = b ∧ r = .back n ∧ ∃ name, new = [{ item with generatedName := name }] := by
  constructor
  intro w hw
  constructor
  · intro kind hkind
    cases hkind
  intro b' hb
  cases hb
  obtain ⟨notes, hname⟩ := exec_deconflict item.generatedName w
  have hcheck : exec (checkMutable "add item") w = (.ok (), w) := by
    simp only [checkMutable, exec_bind_model, hw.unfinished, if_false, exec_pure,
      Bool.false_eq_true]
  -- the check for a duplicate name never fires, because the name was made free just before
  have hfree : w.model.items.get? (Name.deconflict item.generatedName w.model.items.keys) = none :=
    Table.get?_eq_none_iff.mpr (Name.deconflict_notMem _ _)
  have hexec : exec (Build.addItem item) w = (.ok (.back w.model.size),
      { w with
        notes := notes
        model := w.model.withItem
          { item with generatedName := Name.deconflict item.generatedName w.model.items.keys }
          none }) := by
    rw [Build.addItem, exec_bind_ok hcheck, exec_bind_model, exec_bind_ok hname, exec_bind_model]
    simp only [hfree, Option.bind_none]
    rfl
  rw [hexec]
  exact ⟨_, _, rfl, ⟨rfl, rfl⟩, rfl, by rw [hw.size], _, rfl⟩

end Follows

end TypedApi
