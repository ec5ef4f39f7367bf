import TypedApi.Proofs.Build.Along
import Mathlib.Order.Defs.Unbundled
/-!
What a build keeps.

`Keeps R x` says that a build `x` leaves every model in the relation `R` to what
it was before, whether it answers or fails. The relation is reflexive and
transitive, so the rules are the same for all of them, one for each way to put
two parts together. The strongest relation here is `Grows`: items are added
without a path, and nothing else happens; on a finished model nothing happens.
-/

set_option autoImplicit false

namespace TypedApi

open Build

variable {α β : Type} {R : Model → Model → Prop} {m m' : Model}

/-! ## The judgement -/

/-- Whatever the model is, a build leaves it in the relation to what it was before. -/
structure Keeps (R : Model → Model → Prop) (x : Build α) : Prop where
  runs : ∀ w, R w.model (exec x w).2.model

namespace Keeps

/-- A stronger relation is kept as well. -/
theorem mono {R' : Model → Model → Prop} {x : Build α} (hx : Keeps R x)
    (h : ∀ m m', R m m' → R' m m') : Keeps R' x :=
  ⟨fun w => h _ _ (hx.runs w)⟩

/-- What a run has kept. -/
theorem of_exec {x : Build α} {w w' : Workbench} {answer : Except Failure α} (hx : Keeps R x)
    (h : exec x w = (answer, w')) : R w.model w'.model := by
  have hr := hx.runs w
  rwa [h] at hr

theorem ite {c : Prop} [Decidable c] {x y : Build α} (hx : Keeps R x) (hy : Keeps R y) :
    Keeps R (if c then x else y) := by
  split
  · exact hx
  · exact hy

variable [IsPreorder Model R]

/-- A build that leaves every model alone. -/
theorem still {x : Build α} (hx : Still x) : Keeps R x :=
  ⟨fun w => by rw [hx.model_eq w]; exact refl_of R _⟩

theorem pure (a : α) : Keeps R (Pure.pure a) :=
  still (.pure a)

theorem throw (e : Failure) : Keeps R (MonadExcept.throw e : Build α) :=
  still (.throw e)

theorem problem (p : Problem) : Keeps R (Build.problem p : Build α) :=
  still (.problem p)

/-- A sequence goes through the model that its first part leaves. -/
theorem bind {x : Build α} {f : α → Build β} (hx : Keeps R x) (hf : ∀ a, Keeps R (f a)) :
    Keeps R (x >>= f) := by
  constructor
  intro w
  have hfirst := hx.runs w
  rw [exec_bind]
  rcases h : exec x w with ⟨_ | a, u⟩
  · rw [h] at hfirst
    exact hfirst
  · rw [h] at hfirst
    exact trans_of R hfirst ((hf a).runs u)

/-- A sequence whose first part leaves the model alone; what that part answers may be used. -/
theorem skip_answer {x : Build α} {f : α → Build β} (hx : Still x)
    (hf : ∀ a, Answers x a → Keeps R (f a)) : Keeps R (x >>= f) := by
  constructor
  intro w
  have hstill := hx.model_eq w
  rw [exec_bind]
  rcases h : exec x w with ⟨e | a, u⟩
  · rw [h] at hstill
    rw [hstill]
    exact refl_of R _
  · rw [h] at hstill
    rw [← hstill]
    exact (hf a ⟨w, u, h⟩).runs u

/-- A sequence whose first part leaves the model alone. -/
theorem skip {x : Build α} {f : α → Build β} (hx : Still x) (hf : ∀ a, Keeps R (f a)) :
    Keeps R (x >>= f) :=
  skip_answer hx fun a _ => hf a

/-- A sequence that starts by reading the model. -/
theorem model {f : Model → Build β} (hf : ∀ m, Keeps R (f m)) : Keeps R (Build.model >>= f) :=
  skip .model hf

theorem mapM {f : α → Build β} (hf : ∀ a, Keeps R (f a)) (l : List α) : Keeps R (l.mapM f) := by
  induction l with
  | nil => exact pure _
  | cons a l ih =>
    rw [List.mapM_cons]
    exact bind (hf a) fun _ => bind ih fun _ => pure _

theorem forM {f : α → Build PUnit} {l : List α} (hf : ∀ a ∈ l, Keeps R (f a)) :
    Keeps R (l.forM f) := by
  induction l with
  | nil => exact pure _
  | cons a l ih =>
    exact bind (hf a List.mem_cons_self) fun _ => ih fun b hb => hf b (List.mem_cons_of_mem _ hb)

theorem named (path : String) : Keeps R (Build.named path) :=
  model fun _ => still (.lift _)

theorem namedBy (path : Document) : Keeps R (Build.namedBy path) := by
  rw [Build.namedBy.eq_def]
  split
  · exact named _
  · exact ite (problem _) (throw _)

end Keeps

/-- A loop that answers has an answer for each element. A relation that its body keeps where it
answers holds between the beginning and the moment of each answer, and between that and the end. -/
theorem forall₂_between [IsPreorder Model R] {f : α → Build β} {as : List α} {bs : List β}
    {w w' : Workbench}
    (hf : ∀ a u u' b, exec (f a) u = (.ok b, u') → R u.model u'.model)
    (h : exec (as.mapM f) w = (.ok bs, w')) :
    R w.model w'.model ∧
      List.Forall₂ (fun a b => ∃ u u', R w.model u.model ∧ exec (f a) u = (.ok b, u') ∧
        R u'.model w'.model) as bs := by
  induction as generalizing w bs with
  | nil =>
    cases h
    exact ⟨refl_of R _, .nil⟩
  | cons a as ih =>
    rw [List.mapM_cons] at h
    obtain ⟨b, u, hb, h⟩ := of_exec_bind_ok h
    obtain ⟨bs', u', hbs, h⟩ := of_exec_bind_ok h
    cases h
    obtain ⟨hrest, hanswers⟩ := ih hbs
    have hfirst := hf a w u b hb
    refine ⟨trans_of R hfirst hrest, .cons ⟨w, u, refl_of R _, hb, hrest⟩
      (hanswers.imp fun a' b' ⟨v, v', hv, hrun, hend⟩ => ?_)⟩
    exact ⟨v, v', trans_of R hfirst hv, hrun, hend⟩

/-! ## Growth -/

/-- An item is added to an unfinished model, without a path. -/
def Model.Gets (m m' : Model) : Prop :=
  m.finalized = false ∧ ∃ item, m' = m.withItem item none

/-- Any number of items are added, without paths. -/
abbrev Model.Grows : Model → Model → Prop :=
  Relation.ReflTransGen Model.Gets

instance : IsPreorder Model Model.Grows where
  refl _ := .refl
  trans _ _ _ := .trans

/-- A finished model does not grow. -/
theorem Model.Grows.eq_of_finalized (h : m.Grows m') (hfinal : m.finalized = true) : m' = m := by
  rcases Relation.ReflTransGen.cases_head h with rfl | ⟨_, ⟨hopen, _⟩, _⟩
  · rfl
  · rw [hopen] at hfinal
    cases hfinal

/-- What does not concern items is the same after growth. -/
structure Model.SameBesidesItems (m m' : Model) : Prop where
  namedReferences : m'.namedReferences = m.namedReferences
  operations : m'.operations = m.operations
  responseVariants : m'.responseVariants = m.responseVariants
  boundedIntegers : m'.boundedIntegers = m.boundedIntegers
  acceptHeader : m'.acceptHeader = m.acceptHeader
  finalized : m'.finalized = m.finalized

/-- Growth concerns items only. -/
theorem Model.Grows.sameBesidesItems (h : m.Grows m') : m.SameBesidesItems m' := by
  induction h with
  | refl => exact ⟨rfl, rfl, rfl, rfl, rfl, rfl⟩
  | tail _ hgets ih =>
    obtain ⟨_, item, rfl⟩ := hgets
    exact ⟨ih.1, ih.2, ih.3, ih.4, ih.5, ih.6⟩

namespace Keeps

theorem addItem (item : Item) : Keeps Model.Grows (Build.addItem item) := by
  constructor
  intro w
  rcases addItem_cases item none w with ⟨e, w', h, hm⟩ | ⟨name, notes, _, hopen, _, _, h⟩
  · rw [h, hm]
  · rw [h]
    exact .single ⟨hopen, _, rfl⟩

theorem addScalar (specName generatedName : String) (scalar : Scalar) :
    Keeps Model.Grows (Build.addScalar specName generatedName none scalar) :=
  addItem _

end Keeps

end TypedApi
