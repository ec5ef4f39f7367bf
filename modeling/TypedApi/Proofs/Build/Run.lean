import TypedApi.Graph.Build
import Mathlib.Data.List.Forall2
/-!
Running a build step by step.

A build is a function of the workbench, and `exec` applies it. The equations
below say what each building block does to the workbench, so that what a
longer build does can be read off its text from left to right: a step that
fails ends the run, and what it did before it failed stays done.
-/

set_option autoImplicit false

namespace TypedApi

/-- A sequence that answers: both parts do. -/
theorem of_bind_eq_ok {ε α β : Type} {x : Except ε α} {f : α → Except ε β} {b : β}
    (h : x >>= f = .ok b) : ∃ a, x = .ok a ∧ f a = .ok b := by
  cases x with
  | error e => cases h
  | ok a => exact ⟨a, rfl, h⟩

/-- What is read off an answer is read off one that was given. -/
theorem exists_of_toOption_map {ε α β : Type} {x : Except ε α} {f : α → β} {b : β}
    (h : x.toOption.map f = some b) : ∃ a, x = .ok a ∧ f a = b := by
  cases x with
  | error e => cases h
  | ok a => exact ⟨a, rfl, Option.some.inj h⟩

/-- One answer for each element of a list. -/
theorem forall₂_of_mapM {ε α β : Type} {f : α → Except ε β} {as : List α} {bs : List β}
    (h : as.mapM f = .ok bs) : List.Forall₂ (fun a b => f a = .ok b) as bs := by
  induction as generalizing bs with
  | nil =>
    cases h
    exact .nil
  | cons a as ih =>
    rw [List.mapM_cons] at h
    obtain ⟨b, hb, h⟩ := of_bind_eq_ok h
    obtain ⟨bs', hbs, h⟩ := of_bind_eq_ok h
    cases h
    exact .cons hb (ih hbs)

section Forall₂

variable {α β : Type} {R : α → β → Prop} {as : List α} {bs : List β}

/-- What an element is related to. -/
theorem exists_of_mem_forall₂ (h : List.Forall₂ R as bs) {a : α} (ha : a ∈ as) :
    ∃ b ∈ bs, R a b := by
  induction h with
  | nil => cases ha
  | cons hab _ ih =>
    rcases List.mem_cons.mp ha with rfl | ha
    · exact ⟨_, List.mem_cons_self, hab⟩
    · obtain ⟨b, hb, hrel⟩ := ih ha
      exact ⟨b, List.mem_cons_of_mem _ hb, hrel⟩

/-- What is related to an element. -/
theorem exists_of_mem_forall₂_right (h : List.Forall₂ R as bs) {b : β} (hb : b ∈ bs) :
    ∃ a ∈ as, R a b :=
  exists_of_mem_forall₂ (R := fun b a => R a b) h.flip hb

/-- Something for each element of a list, all of it together. -/
theorem exists_forall₂ (h : ∀ a ∈ as, ∃ b, R a b) : ∃ bs, List.Forall₂ R as bs := by
  induction as with
  | nil => exact ⟨[], .nil⟩
  | cons a as ih =>
    obtain ⟨b, hb⟩ := h a List.mem_cons_self
    obtain ⟨bs, hbs⟩ := ih fun a' ha' => h a' (List.mem_cons_of_mem _ ha')
    exact ⟨b :: bs, .cons hb hbs⟩

end Forall₂

namespace Build

variable {α β : Type}

/-- What a build comes to on a workbench: its answer, and the workbench afterwards. -/
def exec (x : Build α) (w : Workbench) : Except Failure α × Workbench :=
  x.run.run w

/-! ## The building blocks -/

@[simp] theorem exec_pure (a : α) (w : Workbench) : exec (pure a) w = (.ok a, w) := rfl

@[simp] theorem exec_throw (e : Failure) (w : Workbench) :
    exec (throw e : Build α) w = (.error e, w) := rfl

@[simp] theorem exec_problem (p : Problem) (w : Workbench) :
    exec (problem p : Build α) w = (.error ⟨p, none⟩, w) := rfl

/-- The run of a sequence: the second part runs on the workbench that the first one leaves. -/
theorem exec_bind (x : Build α) (f : α → Build β) (w : Workbench) :
    exec (x >>= f) w =
      match exec x w with
      | (.ok a, w') => exec (f a) w'
      | (.error e, w') => (.error e, w') := by
  simp only [exec, ExceptT.run, bind, ExceptT.bind, ExceptT.mk, StateT.bind, StateT.run]
  -- the bind of the two monads opens as far as a match on the run of the first part
  show (match x w with | (a, s) => _) = _
  rcases x w with ⟨_ | _, _⟩ <;> rfl

@[simp] theorem exec_model (w : Workbench) : exec model w = (.ok w.model, w) := rfl

@[simp] theorem exec_modifyModel (f : Model → Model) (w : Workbench) :
    exec (modifyModel f) w = (.ok (), { w with model := f w.model }) := rfl

@[simp] theorem exec_note (n : Note) (w : Workbench) :
    exec (note n) w = (.ok (), { w with notes := w.notes ++ [n] }) := rfl

@[simp] theorem exec_lift (e : Except Failure α) (w : Workbench) : exec (lift e) w = (e, w) := by
  cases e <;> rfl

@[simp] theorem exec_require (o : Option α) (w : Workbench) :
    exec (require o) w = (orMalformed o, w) :=
  exec_lift _ w

/-- A lifted answer is the answer. -/
theorem of_exec_lift_ok {e : Except Failure α} {w w' : Workbench} {a : α}
    (h : exec (lift e) w = (.ok a, w')) : e = .ok a := by
  rw [exec_lift] at h
  exact congrArg Prod.fst h

/-- What was required and answered is there. -/
theorem of_exec_require_ok {o : Option α} {w w' : Workbench} {a : α}
    (h : exec (require o) w = (.ok a, w')) : o = some a := by
  have h := of_exec_lift_ok h
  cases o with
  | none => cases h
  | some b => exact congrArg some (Except.ok.inj h)

/-! ## Sequences -/

/-- The run of a sequence whose first part answers. -/
theorem exec_bind_ok {x : Build α} {f : α → Build β} {w w' : Workbench} {a : α}
    (h : exec x w = (.ok a, w')) : exec (x >>= f) w = exec (f a) w' := by
  rw [exec_bind, h]

/-- The run of a sequence whose first part fails. -/
theorem exec_bind_error {x : Build α} {f : α → Build β} {w w' : Workbench} {e : Failure}
    (h : exec x w = (.error e, w')) : exec (x >>= f) w = (.error e, w') := by
  rw [exec_bind, h]

@[simp] theorem exec_bind_model (f : Model → Build β) (w : Workbench) :
    exec (model >>= f) w = exec (f w.model) w := rfl

@[simp] theorem exec_bind_get (f : Workbench → Build β) (w : Workbench) :
    exec ((get : Build Workbench) >>= f) w = exec (f w) w := rfl

/-- A sequence that answers: both parts do, one after the other. -/
theorem of_exec_bind_ok {x : Build α} {f : α → Build β} {w w' : Workbench} {b : β}
    (h : exec (x >>= f) w = (.ok b, w')) :
    ∃ a u, exec x w = (.ok a, u) ∧ exec (f a) u = (.ok b, w') := by
  rw [exec_bind] at h
  rcases hx : exec x w with ⟨_ | a, u⟩
  · rw [hx] at h
    cases h
  · rw [hx] at h
    exact ⟨a, u, rfl, h⟩

/-- A loop over a list with an entry in front. -/
theorem forM_cons (f : α → Build PUnit) (a : α) (l : List α) :
    (a :: l).forM f = f a >>= fun _ => l.forM f :=
  rfl

/-- A loop that answers has answered for the entries before one, for that one, and for the rest. -/
theorem of_exec_forM_ok {f : α → Build PUnit} {before after : List α} {a : α}
    {w w' : Workbench} (h : exec ((before ++ a :: after).forM f) w = (.ok (), w')) :
    ∃ u u', exec (before.forM f) w = (.ok (), u) ∧ exec (f a) u = (.ok (), u') ∧
      exec (after.forM f) u' = (.ok (), w') := by
  induction before generalizing w with
  | nil =>
    obtain ⟨_, u', ha, hafter⟩ := of_exec_bind_ok h
    exact ⟨w, u', rfl, ha, hafter⟩
  | cons b before ih =>
    obtain ⟨_, v, hb, hrest⟩ := of_exec_bind_ok h
    obtain ⟨u, u', hbefore, ha, hafter⟩ := ih hrest
    exact ⟨u, u', (exec_bind_ok hb).trans hbefore, ha, hafter⟩

/-- A loop fails if it has an entry that fails on every workbench. -/
theorem exec_forM_error {f : α → Build PUnit} {l : List α} {a : α} (ha : a ∈ l)
    (hf : ∀ w, ∃ e w', exec (f a) w = (.error e, w')) (w : Workbench) :
    ∃ e w', exec (l.forM f) w = (.error e, w') := by
  obtain ⟨before, after, rfl⟩ := List.append_of_mem ha
  rcases h : exec ((before ++ a :: after).forM f) w with ⟨e | _, w'⟩
  · exact ⟨e, w', rfl⟩
  · obtain ⟨u, u', _, hanswer, _⟩ := of_exec_forM_ok h
    obtain ⟨e, v, herror⟩ := hf u
    rw [herror] at hanswer
    cases hanswer

/-- An answer that a build can come to. -/
def Answers (x : Build α) (a : α) : Prop :=
  ∃ w w', exec x w = (.ok a, w')

/-- A loop that answers has an answer for each element. -/
theorem forall₂_of_exec_mapM {f : α → Build β} {as : List α} {bs : List β} {w w' : Workbench}
    (h : exec (as.mapM f) w = (.ok bs, w')) :
    List.Forall₂ (fun a b => Answers (f a) b) as bs := by
  induction as generalizing w bs with
  | nil =>
    cases h
    exact .nil
  | cons a as ih =>
    rw [List.mapM_cons] at h
    obtain ⟨b, u, hb, h⟩ := of_exec_bind_ok h
    obtain ⟨bs', u', hbs, h⟩ := of_exec_bind_ok h
    cases h
    exact .cons ⟨w, u, hb⟩ (ih hbs)

/-- A loop that answers runs like another one whose body comes to the same at every element. -/
theorem exec_mapM_of_forall₂ {γ : Type} {f : α → Build γ} {g : β → Build γ} {as : List α}
    {bs : List β} {cs : List γ} {w w' : Workbench}
    (hbody : List.Forall₂
      (fun a b => ∀ u u' c, exec (f a) u = (.ok c, u') → exec (g b) u = (.ok c, u')) as bs)
    (h : exec (as.mapM f) w = (.ok cs, w')) : exec (bs.mapM g) w = (.ok cs, w') := by
  induction hbody generalizing w w' cs with
  | nil => exact h
  | cons hab _ ih =>
    rw [List.mapM_cons] at h ⊢
    obtain ⟨c, u, hc, h⟩ := of_exec_bind_ok h
    obtain ⟨cs', u', hcs, h⟩ := of_exec_bind_ok h
    rw [exec_bind_ok (hab w u c hc), exec_bind_ok (ih hcs)]
    exact h

/-! ## Steps that leave the model alone -/

/-- A build that leaves the model as it is; it may make remarks and fetch documentation. -/
structure Still (x : Build α) : Prop where
  model_eq : ∀ w, (exec x w).2.model = w.model

namespace Still

theorem pure (a : α) : Still (Pure.pure a) := ⟨fun _ => rfl⟩

theorem throw (e : Failure) : Still (MonadExcept.throw e : Build α) := ⟨fun _ => rfl⟩

theorem problem (p : Problem) : Still (Build.problem p : Build α) := ⟨fun _ => rfl⟩

theorem lift (e : Except Failure α) : Still (Build.lift e) := ⟨fun w => by rw [exec_lift]⟩

theorem require (o : Option α) : Still (Build.require o) := lift _

theorem model : Still Build.model := ⟨fun _ => rfl⟩

theorem get : Still (MonadState.get : Build Workbench) := ⟨fun _ => rfl⟩

theorem note (n : Note) : Still (Build.note n) := ⟨fun _ => rfl⟩

theorem field (d : Document) (key : String) : Still (Build.field d key) := require _

theorem bind {x : Build α} {f : α → Build β} (hx : Still x) (hf : ∀ a, Still (f a)) :
    Still (x >>= f) := by
  constructor
  intro w
  rw [exec_bind]
  have h := hx.model_eq w
  rcases hx' : exec x w with ⟨_ | a, u⟩
  · rw [hx'] at h
    exact h
  · rw [hx'] at h
    exact ((hf a).model_eq u).trans h

theorem ite {c : Prop} [Decidable c] {x y : Build α} (hx : Still x) (hy : Still y) :
    Still (if c then x else y) := by
  split
  · exact hx
  · exact hy

theorem optionalText (d : Document) : Still (Build.optionalText d) :=
  ite (pure _) (bind (require _) fun _ => pure _)

theorem textOrNull (d : Document) : Still (Build.textOrNull d) :=
  bind (optionalText d) fun o => by cases o <;> exact pure _

theorem deconflict (name : String) : Still (Build.deconflict name) :=
  bind model fun _ => ite (bind (note _) fun _ => pure _) (pure _)

theorem fetchDocs (fetcher : Docs.Fetcher) (url : String) (name : Option String) :
    Still (Build.fetchDocs fetcher url name) := by
  refine bind ⟨fun _ => rfl⟩ fun _ => ?_
  exact ite (bind (note _) fun _ => lift _) (lift _)

end Still

/-- A sequence that answers and begins with a part that leaves the model alone: the rest starts on
the same model. -/
theorem of_exec_bind_still {x : Build α} {f : α → Build β} {w w' : Workbench} {b : β}
    (hx : Still x) (h : exec (x >>= f) w = (.ok b, w')) :
    ∃ a u, exec x w = (.ok a, u) ∧ u.model = w.model ∧ exec (f a) u = (.ok b, w') := by
  obtain ⟨a, u, ha, hf⟩ := of_exec_bind_ok h
  have hsame := hx.model_eq w
  rw [ha] at hsame
  exact ⟨a, u, ha, hsame, hf⟩

/-! ## Steps that read only the document -/

/-- A build that comes to the same on every workbench and leaves it alone. -/
structure Steady (x : Build α) : Prop where
  runs : ∃ r, ∀ w, exec x w = (r, w)

namespace Steady

/-- It fails everywhere, or answers the same everywhere. -/
theorem cases {x : Build α} (hx : Steady x) :
    (∀ w, ∃ e, exec x w = (.error e, w)) ∨ ∃ a, ∀ w, exec x w = (.ok a, w) := by
  obtain ⟨e | a, h⟩ := hx.runs
  · exact .inl fun w => ⟨e, h w⟩
  · exact .inr ⟨a, h⟩

theorem pure (a : α) : Steady (Pure.pure a) := ⟨.ok a, fun _ => rfl⟩

theorem throw (e : Failure) : Steady (MonadExcept.throw e : Build α) := ⟨.error e, fun _ => rfl⟩

theorem problem (p : Problem) : Steady (Build.problem p : Build α) := throw _

theorem lift (e : Except Failure α) : Steady (Build.lift e) := by
  cases e with
  | error e => exact throw e
  | ok a => exact pure a

theorem require (o : Option α) : Steady (Build.require o) := lift _

theorem field (d : Document) (key : String) : Steady (Build.field d key) := require _

theorem bind {x : Build α} {f : α → Build β} (hx : Steady x) (hf : ∀ a, Steady (f a)) :
    Steady (x >>= f) := by
  obtain ⟨e | a, h⟩ := hx.runs
  · exact ⟨.error e, fun w => exec_bind_error (h w)⟩
  · obtain ⟨r, hr⟩ := (hf a).runs
    exact ⟨r, fun w => (exec_bind_ok (h w)).trans (hr w)⟩

theorem ite {c : Prop} [Decidable c] {x y : Build α} (hx : Steady x) (hy : Steady y) :
    Steady (if c then x else y) := by
  split
  · exact hx
  · exact hy

theorem mapM {f : α → Build β} (hf : ∀ a, Steady (f a)) (l : List α) : Steady (l.mapM f) := by
  induction l with
  | nil => exact pure _
  | cons a l ih =>
    rw [List.mapM_cons]
    exact bind (hf a) fun _ => bind ih fun _ => pure _

theorem optionalText (d : Document) : Steady (Build.optionalText d) :=
  ite (pure _) (bind (require _) fun _ => pure _)

theorem textOrNull (d : Document) : Steady (Build.textOrNull d) :=
  bind (optionalText d) fun o => by cases o <;> exact pure _

/-- What leaves the whole workbench alone leaves the model alone. -/
theorem still {x : Build α} (hx : Steady x) : Still x := by
  obtain ⟨r, h⟩ := hx.runs
  exact ⟨fun w => by rw [h]⟩

end Steady

/-- A sequence that answers and begins by reading the document: the rest starts where the whole
did. -/
theorem of_exec_bind_steady {x : Build α} {f : α → Build β} {w w' : Workbench} {b : β}
    (hx : Steady x) (h : exec (x >>= f) w = (.ok b, w')) :
    ∃ a, (∀ u, exec x u = (.ok a, u)) ∧ exec (f a) w = (.ok b, w') := by
  rcases hx.cases with hfail | ⟨a, ha⟩
  · obtain ⟨e, he⟩ := hfail w
    rw [exec_bind_error he] at h
    cases h
  · rw [exec_bind_ok (ha w)] at h
    exact ⟨a, ha, h⟩

/-- A build that answers what is found in the document, and fails if it is not there. -/
structure Finds (x : Build α) (o : Option α) : Prop where
  runs : ∀ w, exec x w = (orMalformed o, w)

namespace Finds

theorem pure (a : α) : Finds (Pure.pure a) (some a) := ⟨fun _ => rfl⟩

theorem require (o : Option α) : Finds (Build.require o) o := ⟨exec_require o⟩

theorem field (d : Document) (key : String) : Finds (Build.field d key) (d.get? key) := require _

theorem bind {x : Build α} {f : α → Build β} {o : Option α} {g : α → Option β} (hx : Finds x o)
    (hf : ∀ a, Finds (f a) (g a)) : Finds (x >>= f) (o >>= g) := by
  constructor
  intro w
  rw [exec_bind, hx.runs]
  cases o with
  | none => rfl
  | some a => exact (hf a).runs w

theorem mapM {f : α → Build β} {g : α → Option β} (hf : ∀ a, Finds (f a) (g a)) (l : List α) :
    Finds (l.mapM f) (l.mapM g) := by
  induction l with
  | nil => exact pure []
  | cons a l ih =>
    rw [List.mapM_cons, List.mapM_cons]
    exact bind (hf a) fun _ => bind ih fun _ => pure _

/-- What is answered was found. -/
theorem of_exec {x : Build α} {o : Option α} {a : α} {w w' : Workbench} (hx : Finds x o)
    (h : exec x w = (.ok a, w')) : o = some a ∧ w' = w := by
  rw [hx.runs, Prod.mk.injEq] at h
  cases o with
  | none => cases h.1
  | some b => exact ⟨congrArg some (Except.ok.inj h.1), h.2.symm⟩

end Finds

end Build

end TypedApi
