import TypedApi.Proofs.Build.Run
import TypedApi.Proofs.Document.Roles
/-!
Two builds that read different documents and do the same.

`Likewise x y R` says of two builds that from every workbench they come to the
same: both fail with problems of one family, or both answer, and then they leave
the same workbench and their answers stand in the relation `R`. Nothing that a
build changes may depend on what the two documents have different, so the
workbench is one and the same for both at every moment.
-/

set_option autoImplicit false

namespace TypedApi

open Build

variable {α β γ δ : Type}

/-! ## The judgement -/

/-- What two runs come to is the same. -/
inductive Concur (R : α → β → Prop) :
    Except Failure α × Workbench → Except Failure β × Workbench → Prop
  | fail (e e' : Failure) (u v : Workbench) : e'.problem.kind = e.problem.kind →
    Concur R (.error e, u) (.error e', v)
  | answer (a : α) (b : β) (w : Workbench) : R a b → Concur R (.ok a, w) (.ok b, w)

/-- From every workbench, two builds come to the same. -/
structure Likewise (x : Build α) (y : Build β) (R : α → β → Prop) : Prop where
  runs : ∀ w, Concur R (exec x w) (exec y w)

namespace Likewise

variable {x : Build α} {y : Build β} {R : α → β → Prop} {Q : γ → δ → Prop}

/-! ## Rules -/

theorem refl {R : α → α → Prop} (h : ∀ a, R a a) (x : Build α) : Likewise x x R := by
  constructor
  intro w
  rcases exec x w with ⟨e | a, u⟩
  · exact .fail e e u u rfl
  · exact .answer a a u (h a)

/-- A build does the same as itself. -/
theorem rfl (x : Build α) : Likewise x x Eq :=
  refl (fun _ => Eq.refl _) x

theorem weaken {Q : α → β → Prop} (hx : Likewise x y R) (h : ∀ a b, R a b → Q a b) :
    Likewise x y Q := by
  constructor
  intro w
  have hrun := hx.runs w
  generalize exec x w = p at hrun ⊢
  generalize exec y w = q at hrun ⊢
  cases hrun with
  | fail e e' u v hkind => exact .fail e e' u v hkind
  | answer a b w hab => exact .answer a b w (h a b hab)

theorem pure {a : α} {b : β} (h : R a b) : Likewise (Pure.pure a) (Pure.pure b) R :=
  ⟨fun w => .answer a b w h⟩

theorem throw {e e' : Failure} (h : e'.problem.kind = e.problem.kind) :
    Likewise (MonadExcept.throw e : Build α) (MonadExcept.throw e' : Build β) R :=
  ⟨fun w => .fail e e' w w h⟩

theorem problem {p p' : Problem} (h : p'.kind = p.kind) :
    Likewise (Build.problem p : Build α) (Build.problem p' : Build β) R :=
  throw h

/-- Sequences: the second parts start from one workbench again. -/
theorem bind {f : α → Build γ} {g : β → Build δ} (hx : Likewise x y R)
    (hf : ∀ a b, R a b → Likewise (f a) (g b) Q) : Likewise (x >>= f) (y >>= g) Q := by
  constructor
  intro w
  have hrun := hx.runs w
  rw [exec_bind, exec_bind]
  generalize exec x w = p at hrun ⊢
  generalize exec y w = q at hrun ⊢
  cases hrun with
  | fail e e' u v hkind => exact .fail e e' u v hkind
  | answer a b w hab => exact (hf a b hab).runs w

/-- Sequences whose first parts answer the same. -/
theorem skip {x x' : Build α} {f : α → Build γ} {g : α → Build δ} (hx : Likewise x x' Eq)
    (hf : ∀ a, Likewise (f a) (g a) Q) : Likewise (x >>= f) (x' >>= g) Q :=
  hx.bind fun a _ hab => hab ▸ hf a

/-- Sequences that begin with the same part. -/
theorem next {x : Build α} {f : α → Build γ} {g : α → Build δ}
    (hf : ∀ a, Likewise (f a) (g a) Q) : Likewise (x >>= f) (x >>= g) Q :=
  skip (rfl x) hf

/-- Sequences whose first parts fail. -/
theorem problem_bind {p p' : Problem} {f : α → Build γ} {g : β → Build δ} (h : p'.kind = p.kind) :
    Likewise ((Build.problem p : Build α) >>= f) ((Build.problem p' : Build β) >>= g) Q :=
  bind (R := fun _ _ => False) (problem h) fun _ _ hab => hab.elim

theorem ite {c : Prop} [Decidable c] {x x' : Build α} {y y' : Build β}
    (hx : c → Likewise x y R) (hy : ¬c → Likewise x' y' R) :
    Likewise (if c then x else x') (if c then y else y') R := by
  split
  · exact hx ‹_›
  · exact hy ‹_›

/-- A question with the same answer on both sides. -/
theorem cond {b b' : Bool} {x x' : Build α} {y y' : Build β} (h : b = b')
    (hx : b = true → Likewise x y R) (hy : ¬b = true → Likewise x' y' R) :
    Likewise (if b then x else x') (if b' then y else y') R := by
  subst h
  exact ite hx hy

/-- Two readings of the documents that come to the same. -/
theorem lift {e : Except Failure α} {e' : Except Failure β} (h : Accord R e e') :
    Likewise (Build.lift e) (Build.lift e') R := by
  cases h with
  | fail e e' hkind => exact throw hkind
  | answer a b hab => exact pure hab

theorem require {o : Option α} {o' : Option β} (h : Option.Rel R o o') :
    Likewise (Build.require o) (Build.require o') R := by
  cases h with
  | none => exact throw (Eq.refl _)
  | some hab => exact pure hab

/-- One build for each entry of two lists. -/
theorem mapM {S : α → β → Prop} {f : α → Build γ} {g : β → Build δ} {l : List α} {l' : List β}
    (hl : List.Forall₂ S l l') (hf : ∀ a b, S a b → Likewise (f a) (g b) Q) :
    Likewise (l.mapM f) (l'.mapM g) (List.Forall₂ Q) := by
  induction hl with
  | nil => exact pure .nil
  | cons hab _ ih =>
    rw [List.mapM_cons, List.mapM_cons]
    exact bind (hf _ _ hab) fun _ _ hcd => bind ih fun _ _ hrest => pure (.cons hcd hrest)

/-- One build for each entry of two lists, with the same answers. -/
theorem mapM_eq {S : α → β → Prop} {f : α → Build γ} {g : β → Build γ} {l : List α} {l' : List β}
    (hl : List.Forall₂ S l l') (hf : ∀ a b, S a b → Likewise (f a) (g b) Eq) :
    Likewise (l.mapM f) (l'.mapM g) Eq :=
  (mapM hl hf).weaken fun _ _ h => List.forall₂_eq_eq_eq ▸ h

/-- One build for each entry of two lists, for what they do alone. -/
theorem forM {S : α → β → Prop} {f : α → Build PUnit} {g : β → Build PUnit} {l : List α}
    {l' : List β} (hl : List.Forall₂ S l l') (hf : ∀ a b, S a b → Likewise (f a) (g b) Eq) :
    Likewise (l.forM f) (l'.forM g) Eq := by
  induction hl with
  | nil => exact rfl _
  | cons hab _ ih => exact skip (hf _ _ hab) fun _ => ih

/-! ## Reading fields -/

section

open Document

variable {P : Role → Document → Document → Prop} (hP : Inherited P) {ρ σ : Role}
  {v v' : Document}

include hP

/-- The value of a field in its role. -/
theorem field (h : Given P ρ v v') (hρ : ρ ≠ .schema true) {key : String}
    (hσ : ρ.under v (.text key) = some σ) :
    Likewise (Build.field v key) (Build.field v' key) (Given P σ) :=
  require (h.get? hP hρ hσ)

/-- The value of a field that is read as it stands. -/
theorem field_eq (h : Given P ρ v v') (hρ : ρ ≠ .schema true) {key : String}
    (hkey : key ∈ ρ.keywords) : Likewise (Build.field v key) (Build.field v' key) Eq :=
  (field hP h hρ (Role.under_keyword hkey v)).weaken fun _ _ h => h.data_eq hP

/-- The check that a value is an object. -/
theorem fields (h : Given P ρ v v') (hρ : ρ ≠ .schema true) :
    Likewise (Build.require v.fields?) (Build.require v'.fields?) fun _ _ => True := by
  refine require ?_
  have hakin := h.akin_of_ne hP hρ
  cases v with
  | object fields =>
    cases v' with
    | object fields' => exact .some trivial
    | _ => cases hakin
  | _ => cases hakin <;> exact .none

end

end Likewise

end TypedApi
