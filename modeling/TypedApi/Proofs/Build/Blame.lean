import TypedApi.Proofs.Build.Keeps
import TypedApi.Proofs.Graph.Finish
/-!
Builds that fail only over the document.

Some problems lie in the document: a reference that leads nowhere, a schema
without an item, a method that does not exist. Others would lie in the library:
a name given twice, a path registered for two items, a call after the end. A
build blames the document if, on an unfinished model, it fails with problems of
the first sort only.

Two things are asked of the model for that, and both only where an item or a
path is added. It must be unfinished, which every build leaves it, and a path
that is given must be free or lead to the right item. Names need no such
condition, since they are made free before they are used.
-/

set_option autoImplicit false

namespace TypedApi

open Build

/-! ## Faults of a document -/

/-- The families of problems that lie in a document, or in an address that it gives. -/
def ProblemKind.liesInDocument : ProblemKind → Bool
  | .unknownReference | .shape | .schema => true
  | .operation | .unknownVerb | .unsupportedLocation | .malformedContent => true
  | .malformed | .unusableAddress => true
  | _ => false

/-- A failure over the document. -/
def Failure.OverDocument (e : Failure) : Prop :=
  e.problem.kind.liesInDocument = true

theorem Failure.overDocument_malformed : Failure.malformed.OverDocument :=
  rfl

/-! ## Computations -/

/-- A computation all of whose failures have a property. -/
def FailsOnly {α : Type} (P : Failure → Prop) (x : Except Failure α) : Prop :=
  ∀ e, x = .error e → P e

namespace FailsOnly

variable {α β : Type} {P : Failure → Prop}

theorem ok (a : α) : FailsOnly P (.ok a) :=
  fun _ h => by cases h

theorem error {e : Failure} (h : P e) : FailsOnly P (.error e : Except Failure α) := by
  rintro _ ⟨⟩
  exact h

theorem fail {p : Problem} (h : P ⟨p, none⟩) : FailsOnly P (TypedApi.fail p : Except Failure α) :=
  error h

theorem orMalformed (h : P .malformed) (o : Option α) : FailsOnly P (TypedApi.orMalformed o) := by
  cases o with
  | none => exact error h
  | some a => exact ok a

theorem bind {x : Except Failure α} {f : α → Except Failure β} (hx : FailsOnly P x)
    (hf : ∀ a, x = .ok a → FailsOnly P (f a)) : FailsOnly P (x >>= f) := by
  cases x with
  | error e => exact error (hx e rfl)
  | ok a => exact hf a rfl

theorem map {x : Except Failure α} (hx : FailsOnly P x) (f : α → β) : FailsOnly P (x.map f) := by
  cases x with
  | error e => exact error (hx e rfl)
  | ok a => exact ok _

theorem ite {c : Prop} [Decidable c] {x y : Except Failure α} (hx : c → FailsOnly P x)
    (hy : ¬c → FailsOnly P y) : FailsOnly P (if c then x else y) := by
  split
  · exact hx ‹_›
  · exact hy ‹_›

theorem mapM {f : α → Except Failure β} {l : List α} (hf : ∀ a ∈ l, FailsOnly P (f a)) :
    FailsOnly P (l.mapM f) := by
  induction l with
  | nil => exact ok []
  | cons a l ih =>
    rw [List.mapM_cons]
    refine bind (hf a List.mem_cons_self) fun b _ => ?_
    exact bind (ih fun a' ha' => hf a' (List.mem_cons_of_mem _ ha')) fun _ _ => ok _

theorem foldlM {f : β → α → Except Failure β} {l : List α} (hf : ∀ b, ∀ a ∈ l, FailsOnly P (f b a))
    (b : β) : FailsOnly P (l.foldlM f b) := by
  induction l generalizing b with
  | nil => exact ok b
  | cons a l ih =>
    rw [List.foldlM_cons]
    exact bind (hf b a List.mem_cons_self) fun b' _ =>
      ih (fun b'' a' ha' => hf b'' a' (List.mem_cons_of_mem _ ha')) b'

theorem anyM {f : α → Except Failure Bool} {l : List α} (hf : ∀ a ∈ l, FailsOnly P (f a)) :
    FailsOnly P (l.anyM f) := by
  induction l with
  | nil => exact ok false
  | cons a l ih =>
    rw [List.anyM]
    refine bind (hf a List.mem_cons_self) fun b _ => ?_
    cases b with
    | true => exact ok true
    | false => exact ih fun a' ha' => hf a' (List.mem_cons_of_mem _ ha')

end FailsOnly

/-! ## Builds that read -/

/-- A build that leaves the model as it is and fails only over the document. -/
structure Reads {α : Type} (x : Build α) : Prop where
  still : Still x
  blames : ∀ w, FailsOnly Failure.OverDocument (exec x w).1

namespace Reads

variable {α β : Type}

theorem pure (a : α) : Reads (Pure.pure a) :=
  ⟨.pure a, fun _ => .ok a⟩

theorem throw {e : Failure} (h : e.OverDocument) : Reads (MonadExcept.throw e : Build α) :=
  ⟨.throw e, fun _ => .error h⟩

theorem problem {p : Problem} (h : p.kind.liesInDocument = true) :
    Reads (Build.problem p : Build α) :=
  throw h

theorem lift {x : Except Failure α} (h : FailsOnly Failure.OverDocument x) :
    Reads (Build.lift x) :=
  ⟨.lift x, fun w => by rw [exec_lift]; exact h⟩

theorem require (o : Option α) : Reads (Build.require o) :=
  lift (.orMalformed Failure.overDocument_malformed o)

theorem field (d : Document) (key : String) : Reads (Build.field d key) :=
  require _

theorem get : Reads (MonadState.get : Build Workbench) :=
  ⟨.get, fun w => .ok w⟩

theorem model : Reads Build.model :=
  ⟨.model, fun w => .ok w.model⟩

theorem note (n : Note) : Reads (Build.note n) :=
  ⟨.note n, fun _ => .ok ()⟩

theorem bind {x : Build α} {f : α → Build β} (hx : Reads x) (hf : ∀ a, Reads (f a)) :
    Reads (x >>= f) := by
  refine ⟨.bind hx.still fun a => (hf a).still, fun w => ?_⟩
  have hblames := hx.blames w
  rw [exec_bind]
  rcases h : exec x w with ⟨e | a, u⟩
  · rw [h] at hblames
    exact .error (hblames e rfl)
  · exact (hf a).blames u

theorem ite {c : Prop} [Decidable c] {x y : Build α} (hx : Reads x) (hy : Reads y) :
    Reads (if c then x else y) := by
  split
  · exact hx
  · exact hy

theorem mapM {f : α → Build β} (hf : ∀ a, Reads (f a)) (l : List α) : Reads (l.mapM f) := by
  induction l with
  | nil => exact pure _
  | cons a l ih =>
    rw [List.mapM_cons]
    exact bind (hf a) fun _ => bind ih fun _ => pure _

theorem optionalText (d : Document) : Reads (Build.optionalText d) :=
  ite (pure _) (bind (require _) fun _ => pure _)

theorem textOrNull (d : Document) : Reads (Build.textOrNull d) :=
  bind (optionalText d) fun o => by cases o <;> exact pure _

theorem deconflict (name : String) : Reads (Build.deconflict name) :=
  bind model fun _ => ite (bind (note _) fun _ => pure _) (pure _)

/-- Documentation that cannot be had is a fault of the schema that asks for it, or of the address
that it gives. -/
theorem fetchDocs (fetcher : Docs.Fetcher) (url : String) (name : Option String) :
    Reads (Build.fetchDocs fetcher url name) := by
  have hfailure : ∀ p, (Docs.Fetcher.failure url name p).OverDocument := by
    intro p
    cases p <;> rfl
  have hresult : FailsOnly Failure.OverDocument (fetcher.fetch url name).1.result := by
    rw [Docs.Fetcher.fetch]
    split
    · exact .error (hfailure _)
    · split
      · exact .ok _
      · rw [Docs.Fetcher.fetchAnew]
        dsimp only
        split
        · exact .ok _
        · exact .error (hfailure _)
  refine bind ⟨⟨fun _ => rfl⟩, fun _ => .ok ()⟩ fun _ => ?_
  exact ite (bind (note _) fun _ => lift hresult) (lift hresult)

end Reads

/-! ## Answers and what they leave -/

/-- What a build answers on a model, with the model that it leaves. -/
def Leaves {α : Type} (x : Build α) (m : Model) (a : α) (m' : Model) : Prop :=
  ∃ w w', w.model = m ∧ exec x w = (.ok a, w') ∧ w'.model = m'

/-- What a build keeps, it has kept where it has answered. -/
theorem Keeps.of_leaves {α : Type} {R : Model → Model → Prop} [IsPreorder Model R] {x : Build α}
    {m m' : Model} {a : α} (hx : Keeps R x) (h : Leaves x m a m') : R m m' := by
  obtain ⟨w, w', rfl, hexec, rfl⟩ := h
  exact hx.of_exec hexec

namespace Leaves

variable {α β : Type} {m m' : Model} {a b : α}

theorem of_pure (h : Leaves (Pure.pure a) m b m') : b = a ∧ m' = m := by
  obtain ⟨w, w', rfl, hexec, rfl⟩ := h
  cases hexec
  exact ⟨rfl, rfl⟩

theorem of_still {x : Build α} (hx : Still x) (h : Leaves x m a m') : m' = m := by
  obtain ⟨w, w', rfl, hexec, rfl⟩ := h
  have hstill := hx.model_eq w
  rwa [hexec] at hstill

theorem of_bind {x : Build α} {f : α → Build β} {c : β} (h : Leaves (x >>= f) m c m') :
    ∃ a m₁, Leaves x m a m₁ ∧ Leaves (f a) m₁ c m' := by
  obtain ⟨w, w', rfl, hexec, rfl⟩ := h
  obtain ⟨a, u, hx, hf⟩ := of_exec_bind_ok hexec
  exact ⟨a, u.model, ⟨w, u, rfl, hx, rfl⟩, ⟨u, w', rfl, hf, rfl⟩⟩

theorem of_model {f : Model → Build β} {c : β} (h : Leaves (Build.model >>= f) m c m') :
    Leaves (f m) m c m' := by
  obtain ⟨w, w', rfl, hexec, rfl⟩ := h
  exact ⟨w, w', rfl, hexec, rfl⟩

theorem of_registerPath {path : String} {r : Ref} {u : Unit}
    (h : Leaves (Build.registerPath path r) m u m') :
    ∃ index, r.index? = some index ∧ m' = m.withPath path index := by
  obtain ⟨w, w', rfl, hexec, rfl⟩ := h
  rcases registerPath_cases path r w with ⟨e, hfail⟩ | ⟨index, hindex, _, _, hok⟩
  · rw [hfail] at hexec
    cases hexec
  · rw [hok] at hexec
    cases hexec
    exact ⟨index, hindex, rfl⟩

/-- An item that is added under a path is what the path leads to. -/
theorem of_addItem {item : Item} {path : String} {r : Ref}
    (h : Leaves (Build.addItem item (some path)) m r m') :
    ∃ index, r.index? = some index ∧ m'.namedReferences.get? path = some index := by
  obtain ⟨w, w', rfl, hexec, rfl⟩ := h
  obtain ⟨rfl, hget, _⟩ := addItem_registers hexec
  exact ⟨_, rfl, hget⟩

end Leaves

/-! ## Builds that add -/

/-- A model with a path that is still free. -/
def Model.Free (m : Model) (path : String) : Prop :=
  m.namedReferences.get? path = none

/-- Two models with the same registered paths. -/
def Model.SamePaths (m m' : Model) : Prop :=
  m'.namedReferences = m.namedReferences

theorem Model.SamePaths.trans {m m' m'' : Model} (h : m.SamePaths m') (h' : m'.SamePaths m'') :
    m.SamePaths m'' :=
  Eq.trans h' h

instance : IsPreorder Model Model.SamePaths where
  refl _ := rfl
  trans _ _ _ := Model.SamePaths.trans

theorem Model.Grows.samePaths {m m' : Model} (h : m.Grows m') : m.SamePaths m' :=
  h.sameBesidesItems.namedReferences

theorem Model.SamePaths.free {m m' : Model} (h : m.SamePaths m') {path : String}
    (hfree : m.Free path) : m'.Free path := by
  rwa [Model.Free, h]

/-- A remark on an item registers no path. -/
theorem Keeps.remark (r : Ref) (f : Item → Item) :
    Keeps Model.SamePaths (Build.modifyItem r f) := by
  refine .model fun m => .skip (.lift _) fun index => ?_
  split
  · exact ⟨fun w => rfl⟩
  · exact .throw _

/-- From an unfinished model a build fails only over the document, and it does not finish the
model. -/
structure Blames {α : Type} (m : Model) (x : Build α) : Prop where
  runs : m.finalized = false → ∀ w, w.model = m →
    FailsOnly Failure.OverDocument (exec x w).1 ∧ (exec x w).2.model.finalized = false

namespace Blames

variable {α β : Type} {m : Model}

theorem reads {x : Build α} (hx : Reads x) : Blames m x := by
  constructor
  rintro hopen w rfl
  exact ⟨hx.blames w, (hx.still.model_eq w).symm ▸ hopen⟩

theorem pure (a : α) : Blames m (Pure.pure a) :=
  reads (.pure a)

theorem problem {p : Problem} (h : p.kind.liesInDocument = true) :
    Blames m (Build.problem p : Build α) :=
  reads (.problem h)

/-- A sequence: the second part starts on a model that the first one has left. -/
theorem bind {x : Build α} {f : α → Build β} (hx : Blames m x)
    (hf : ∀ a m', Leaves x m a m' → Blames m' (f a)) : Blames m (x >>= f) := by
  constructor
  rintro hopen w rfl
  obtain ⟨hfails, hopen'⟩ := hx.runs hopen w rfl
  rw [exec_bind]
  rcases h : exec x w with ⟨e | a, u⟩
  · rw [h] at hfails hopen'
    exact ⟨.error (hfails e rfl), hopen'⟩
  · rw [h] at hopen'
    exact (hf a u.model ⟨w, u, rfl, h, rfl⟩).runs hopen' u rfl

/-- A sequence whose first part only reads; what that part answers may be used. -/
theorem skip_answer {x : Build α} {f : α → Build β} (hx : Reads x)
    (hf : ∀ a, Answers x a → Blames m (f a)) : Blames m (x >>= f) := by
  refine (reads hx).bind fun a m' h => ?_
  rw [h.of_still hx.still]
  obtain ⟨w, w', _, hexec, _⟩ := h
  exact hf a ⟨w, w', hexec⟩

/-- A sequence whose first part only reads. -/
theorem skip {x : Build α} {f : α → Build β} (hx : Reads x) (hf : ∀ a, Blames m (f a)) :
    Blames m (x >>= f) :=
  skip_answer hx fun a _ => hf a

/-- A sequence that starts by reading the model. -/
theorem model {f : Model → Build β} (hf : Blames m (f m)) : Blames m (Build.model >>= f) := by
  constructor
  rintro hopen w rfl
  exact hf.runs hopen w rfl

theorem ite {c : Prop} [Decidable c] {x y : Build α} (hx : c → Blames m x) (hy : ¬c → Blames m y) :
    Blames m (if c then x else y) := by
  split
  · exact hx ‹_›
  · exact hy ‹_›

theorem mapM {f : α → Build β} {l : List α} (hf : ∀ a ∈ l, ∀ m', Blames m' (f a)) :
    Blames m (l.mapM f) := by
  induction l generalizing m with
  | nil => exact pure _
  | cons a l ih =>
    rw [List.mapM_cons]
    refine bind (hf a List.mem_cons_self m) fun _ m₁ _ => ?_
    exact bind (ih fun a' ha' => hf a' (List.mem_cons_of_mem _ ha')) fun _ _ _ => pure _

/-- One build for each element of a list, each on a model with a condition that it keeps for those
after it. -/
theorem forM {f : α → Build PUnit} {P : α → Model → Prop} {l : List α}
    (hf : ∀ a ∈ l, ∀ m', P a m' → Blames m' (f a))
    (hkeep : l.Pairwise fun a b => ∀ m₁ m₂, Leaves (f a) m₁ () m₂ → P b m₁ → P b m₂)
    (hP : ∀ a ∈ l, P a m) : Blames m (l.forM f) := by
  induction l generalizing m with
  | nil => exact pure _
  | cons a l ih =>
    obtain ⟨hfirst, hrest⟩ := List.pairwise_cons.mp hkeep
    refine bind (hf a List.mem_cons_self m (hP a List.mem_cons_self)) fun _ m' hleaves => ?_
    exact ih (fun b hb => hf b (List.mem_cons_of_mem _ hb)) hrest
      fun b hb => hfirst b hb m m' hleaves (hP b (List.mem_cons_of_mem _ hb))

/-! ## The primitives -/

/-- **Adding an item never fails** on an unfinished model, if its path is free. -/
theorem addItem {item : Item} {path : Option String} (h : ∀ p, path = some p → m.Free p) :
    Blames m (Build.addItem item path) := by
  constructor
  rintro hopen w rfl
  obtain ⟨notes, hexec⟩ := @exec_addItem item path w hopen h
  rw [hexec]
  exact ⟨.ok _, hopen⟩

/-- An item without a path. -/
theorem addInner (item : Item) : Blames m (Build.addItem item) :=
  addItem (by simp)

theorem addScalar {specName generatedName : String} {path : Option String} {scalar : Scalar}
    (h : ∀ p, path = some p → m.Free p) :
    Blames m (Build.addScalar specName generatedName path scalar) :=
  addItem h

/-- A lookup fails over a reference that leads nowhere. -/
theorem overDocument_of_indexOf (r : Ref) : FailsOnly Failure.OverDocument (m.indexOf r) := by
  intro e he
  obtain ⟨reference, rfl⟩ := Model.problem_of_indexOf_eq_error he
  rfl

theorem overDocument_of_nameOf (r : Ref) : FailsOnly Failure.OverDocument (m.nameOf r) := by
  refine .map ?_ _
  rw [Model.resolve]
  split
  · exact .orMalformed Failure.overDocument_malformed _
  · exact .error (overDocument_of_indexOf r _ ‹_›)

theorem modifyItem (r : Ref) (f : Item → Item) : Blames m (Build.modifyItem r f) := by
  refine .model (.skip (.lift (overDocument_of_indexOf r)) fun index => ?_)
  split
  · constructor
    rintro hopen w rfl
    exact ⟨.ok (), hopen⟩
  · exact .reads (.throw rfl)

theorem named (path : String) : Reads (Build.named path) := by
  refine .bind .model fun m => .lift ?_
  rw [Model.named]
  split
  · exact .ok _
  · exact .fail rfl

theorem namedBy (path : Document) : Reads (Build.namedBy path) := by
  rw [Build.namedBy.eq_def]
  split
  · exact named _
  · exact .ite (.problem rfl) (.throw rfl)

/-- **Registering a path fails over a reference only**, on an unfinished model, if the path is free
or leads to the item already. -/
theorem registerPath {path : String} {r : Ref}
    (h : ∀ old, m.namedReferences.get? path = some old → r.index? = some old) :
    Blames m (Build.registerPath path r) := by
  constructor
  rintro hopen w rfl
  have hcheck : exec (checkMutable "register named reference") w = (.ok (), w) := by
    simp only [checkMutable, exec_bind_model, hopen, if_false, exec_pure, Bool.false_eq_true]
  rw [Build.registerPath, exec_bind_ok hcheck]
  cases r with
  | forward p => exact ⟨.error rfl, hopen⟩
  | back index | resolved index =>
    simp only [exec_bind_model]
    cases hget : w.model.namedReferences.get? path with
    | none => exact ⟨.ok (), hopen⟩
    | some old =>
      have hsame : old = index := (Option.some.inj (h old hget)).symm
      simp only [hsame, ne_eq, not_true_eq_false, if_false, exec_modifyModel]
      exact ⟨.ok (), hopen⟩

/-- A path that is free is registered for any item. -/
theorem registerFree {path : String} {r : Ref} (h : m.Free path) :
    Blames m (Build.registerPath path r) :=
  registerPath fun old hold => by
    rw [h] at hold
    cases hold

end Blames

end TypedApi
