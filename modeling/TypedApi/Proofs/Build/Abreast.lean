import TypedApi.Proofs.Build.Along
import TypedApi.Proofs.Build.Follows
import TypedApi.Proofs.Build.Tied
import TypedApi.Proofs.Graph.Finish
import TypedApi.Proofs.Name.Safe
/-!
Two builds side by side.

`Abreast T x y R` says of two builds that from any two workbenches whose models
are tied by `T` they come to the same: both fail, or both answer, and then the
models are tied again and the answers stand in the relation `R`. The rules
follow the way builds are written. A part that reads nothing but the document
comes to the same on both sides; a name may differ, since names depend on what
was there before; and a reference becomes what the tie makes of it.
-/

set_option autoImplicit false

namespace TypedApi

open Build

variable {α β γ δ : Type} {T : Tie} {m m' : Model}

/-! ## The judgement -/

/-- Two workbenches without a source of external documentation whose models are tied. -/
structure Workbench.Tied (T : Tie) (u v : Workbench) : Prop where
  models : Model.Tied T u.model v.model
  docs : u.docs = none
  docs' : v.docs = none

/-- What two runs come to is the same: both have failed, or both have answered. -/
inductive Level (T : Tie) (R : α → β → Prop) :
    Except Failure α × Workbench → Except Failure β × Workbench → Prop
  | fail (e e' : Failure) (u v : Workbench) : Level T R (.error e, u) (.error e', v)
  | answer (a : α) (b : β) (u v : Workbench) :
    Workbench.Tied T u v → R a b → Level T R (.ok a, u) (.ok b, v)

/-- If the first of two such runs has answered, so has the other. -/
theorem Level.of_ok {R : α → β → Prop} {a : α} {u : Workbench} {q : Except Failure β × Workbench}
    (h : Level T R (.ok a, u) q) : ∃ b v, q = (.ok b, v) ∧ Workbench.Tied T u v ∧ R a b := by
  cases h with
  | answer a b u v htied hab => exact ⟨b, v, rfl, htied, hab⟩

/-- If the first of two such runs has failed, so has the other. -/
theorem Level.of_error {R : α → β → Prop} {e : Failure} {u : Workbench}
    {q : Except Failure β × Workbench} (h : Level T R (.error e, u) q) : ∃ e' v, q = (.error e', v) := by
  cases h with
  | fail e e' u v => exact ⟨e', v, rfl⟩

/-- From tied workbenches, two builds come to the same. -/
structure Abreast (T : Tie) (x : Build α) (y : Build β) (R : α → β → Prop) : Prop where
  runs : ∀ u v, Workbench.Tied T u v → Level T R (exec x u) (exec y v)

/-- Two runs that have come to the same go on to the same. -/
theorem Level.bind {x : Build α} {y : Build β} {f : α → Build γ} {g : β → Build δ}
    {R : α → β → Prop} {Q : γ → δ → Prop} {u v : Workbench} (h : Level T R (exec x u) (exec y v))
    (hf : ∀ a b, R a b → Abreast T (f a) (g b) Q) :
    Level T Q (exec (x >>= f) u) (exec (y >>= g) v) := by
  rw [exec_bind, exec_bind]
  generalize exec x u = p at h ⊢
  generalize exec y v = q at h ⊢
  cases h with
  | fail e e' u v => exact .fail e e' u v
  | answer a b u v htied hab => exact (hf a b hab).runs u v htied

namespace Abreast

/-! ## Rules -/

theorem weaken {x : Build α} {y : Build β} {R Q : α → β → Prop} (hx : Abreast T x y R)
    (h : ∀ a b, R a b → Q a b) : Abreast T x y Q := by
  constructor
  intro u v huv
  have hlevel := hx.runs u v huv
  generalize exec x u = p at hlevel ⊢
  generalize exec y v = q at hlevel ⊢
  cases hlevel with
  | fail e e' u v => exact .fail e e' u v
  | answer a b u v htied hab => exact .answer a b u v htied (h a b hab)

theorem pure {a : α} {b : β} {R : α → β → Prop} (h : R a b) :
    Abreast T (Pure.pure a) (Pure.pure b) R :=
  ⟨fun u v huv => .answer a b u v huv h⟩

theorem throw {e e' : Failure} {R : α → β → Prop} :
    Abreast T (MonadExcept.throw e : Build α) (MonadExcept.throw e' : Build β) R :=
  ⟨fun u v _ => .fail e e' u v⟩

theorem problem {p p' : Problem} {R : α → β → Prop} :
    Abreast T (Build.problem p : Build α) (Build.problem p' : Build β) R :=
  throw

/-- Two builds that fail whatever they start from. -/
theorem fails {x : Build α} {y : Build β} {R : α → β → Prop}
    (hx : ∀ w, ∃ e w', exec x w = (.error e, w')) (hy : ∀ w, ∃ e w', exec y w = (.error e, w')) :
    Abreast T x y R := by
  constructor
  intro u v _
  obtain ⟨e, u', hu⟩ := hx u
  obtain ⟨e', v', hv⟩ := hy v
  rw [hu, hv]
  exact .fail e e' u' v'

/-- Sequences: the second parts start from workbenches that are tied again. -/
theorem bind {x : Build α} {y : Build β} {f : α → Build γ} {g : β → Build δ}
    {R : α → β → Prop} {Q : γ → δ → Prop} (hx : Abreast T x y R)
    (hf : ∀ a b, R a b → Abreast T (f a) (g b) Q) : Abreast T (x >>= f) (y >>= g) Q :=
  ⟨fun u v huv => (hx.runs u v huv).bind hf⟩

/-- Sequences whose first parts answer as the same computation does. -/
theorem plain {x y : Build α} {v : Except ProblemKind α} {f : α → Build γ} {g : α → Build δ}
    {Q : γ → δ → Prop} (hx : Plain x v) (hy : Plain y v) (hf : ∀ a, Abreast T (f a) (g a) Q) :
    Abreast T (x >>= f) (y >>= g) Q := by
  refine bind (R := Eq) ⟨fun u w huw => ?_⟩ fun a b hab => hab ▸ hf a
  rcases hx.runs u with ⟨kind, rfl, e, he, _⟩ | ⟨a, rfl, ha⟩
  · rcases hy.runs w with ⟨_, _, e', he', _⟩ | ⟨_, hne, _⟩
    · rw [he, he']
      exact .fail e e' u w
    · cases hne
  · rcases hy.runs w with ⟨_, hne, _⟩ | ⟨b, hb, hb'⟩
    · cases hne
    · cases hb
      rw [ha, hb']
      exact .answer a a u w huw rfl

/-- Sequences that begin with the same reading of the document. -/
theorem skip {x : Build α} {f : α → Build γ} {g : α → Build δ} {Q : γ → δ → Prop} (hx : Steady x)
    (hf : ∀ a, Abreast T (f a) (g a) Q) : Abreast T (x >>= f) (x >>= g) Q := by
  constructor
  intro u v huv
  rcases hx.cases with hfail | ⟨a, ha⟩
  · obtain ⟨e, he⟩ := hfail u
    obtain ⟨e', he'⟩ := hfail v
    rw [exec_bind_error he, exec_bind_error he']
    exact .fail e e' u v
  · rw [exec_bind_ok (ha u), exec_bind_ok (ha v)]
    exact (hf a).runs u v huv

/-- Sequences that begin with what is there in the document, if anything. -/
theorem require {o : Option α} {f : α → Build γ} {g : α → Build δ} {Q : γ → δ → Prop}
    (hf : ∀ a, o = some a → Abreast T (f a) (g a) Q) :
    Abreast T (Build.require o >>= f) (Build.require o >>= g) Q := by
  cases o with
  | none => exact bind (R := fun _ _ => False) throw fun _ _ hab => hab.elim
  | some a => exact hf a rfl

/-- The same reading of the document on both sides. -/
theorem steady {x : Build α} {R : α → α → Prop} (hx : Steady x) (h : ∀ a, R a a) :
    Abreast T x x R := by
  have hbind := skip (T := T) (f := Pure.pure) (g := Pure.pure) hx fun a => pure (h a)
  rwa [bind_pure] at hbind

/-- Sequences that start by reading the model. -/
theorem model {f : Model → Build γ} {g : Model → Build δ} {Q : γ → δ → Prop}
    (hf : ∀ m m', Model.Tied T m m' → Abreast T (f m) (g m') Q) :
    Abreast T (Build.model >>= f) (Build.model >>= g) Q :=
  ⟨fun u v huv => (hf u.model v.model huv.models).runs u v huv⟩

theorem ite {c : Prop} [Decidable c] {x x' : Build α} {y y' : Build β} {R : α → β → Prop}
    (hx : c → Abreast T x y R) (hy : ¬c → Abreast T x' y' R) :
    Abreast T (if c then x else x') (if c then y else y') R := by
  split
  · exact hx ‹_›
  · exact hy ‹_›

/-- One build for each element of a list on both sides, where what is done on the right gives the
image of what is done on the left. -/
theorem mapM {f : α → Build β} {g : α → Build γ} {h : β → γ} {l : List α}
    (hf : ∀ a ∈ l, Abreast T (f a) (g a) fun b c => c = h b) :
    Abreast T (l.mapM f) (l.mapM g) fun bs cs => cs = bs.map h := by
  induction l with
  | nil => exact pure rfl
  | cons a l ih =>
    rw [List.mapM_cons, List.mapM_cons]
    refine bind (hf a List.mem_cons_self) fun b c hbc => ?_
    refine bind (ih fun a' ha' => hf a' (List.mem_cons_of_mem _ ha')) fun bs cs hbcs => ?_
    exact pure (by rw [hbc, hbcs, List.map_cons])

/-- One build for each element of a list on both sides, for what they do alone. -/
theorem forM {f g : α → Build PUnit} {l : List α}
    (hf : ∀ a ∈ l, Abreast T (f a) (g a) fun _ _ => True) :
    Abreast T (l.forM f) (l.forM g) fun _ _ => True := by
  induction l with
  | nil => exact pure trivial
  | cons a l ih =>
    exact bind (hf a List.mem_cons_self) fun _ _ _ =>
      ih fun a' ha' => hf a' (List.mem_cons_of_mem _ ha')

end Abreast

/-! ## The primitives -/

namespace Build

/-- An item is not added under a path that is taken. -/
theorem exec_addItem_taken {item : Item} {p : String} {index : Int} {w : Workbench}
    (hp : w.model.namedReferences.get? p = some index) :
    ∃ e w', exec (addItem item (some p)) w = (.error e, w') := by
  rcases addItem_cases item (some p) w with ⟨e, w', h, _⟩ | ⟨_, _, _, _, _, hfree, _⟩
  · exact ⟨e, w', h⟩
  · rw [hfree p rfl] at hp
    cases hp

/-- The item behind a reference is changed. -/
theorem exec_modifyItem {r : Ref} {f : Item → Item} {w : Workbench} {i : Nat}
    (hindex : w.model.indexOf r = .ok (i : Int)) (hi : i < w.model.size) :
    exec (modifyItem r f) w = (.ok (), { w with model := w.model.withChange i f }) := by
  rw [modifyItem, exec_bind_model, exec_bind, exec_lift, hindex]
  simp only [Model.position?_natCast hi, exec_modifyModel]
  rfl

end Build

/-- Two back references to corresponding items. -/
def Tie.Placed (T : Tie) (r r' : Ref) : Prop :=
  ∃ index, r = .back index ∧ r' = .back (renumberIndex T.index index)

theorem Tie.Placed.eq_move {r r' : Ref} (h : T.Placed r r') : r' = T.move r := by
  obtain ⟨index, rfl, rfl⟩ := h
  rfl

namespace Model.Tied

/-- Corresponding indices are both in range or both out of it. -/
theorem inRange_iff (h : Model.Tied T m m') (index : Int) :
    m'.inRange (renumberIndex T.index index) = m.inRange index := by
  rw [Bool.eq_iff_iff, Model.inRange_iff, Model.inRange_iff]
  cases index with
  | negSucc i => simp only [renumberIndex]; omega
  | ofNat i =>
    by_cases hi : i < m.size
    · obtain ⟨item', hitem', _⟩ := h.items i m.definitions[i] (List.getElem?_eq_getElem hi)
      have hlt : T.index i < m'.size := (List.getElem?_eq_some_iff.mp hitem').1
      simp only [renumberIndex, Int.ofNat_eq_natCast]
      omega
    -- past the end, items are numbered in the order in which they will come
    · have hfresh := h.fresh (i - m.size)
      rw [Nat.add_sub_cancel' (Nat.le_of_not_lt hi)] at hfresh
      simp only [renumberIndex, Int.ofNat_eq_natCast, hfresh]
      omega

/-- Corresponding references have corresponding indices, or none on both sides. -/
theorem indexOf_placed (h : Model.Tied T m m') {r r' : Ref} (hr : T.Placed r r') :
    (∃ i : Nat, m.indexOf r = .ok (i : Int) ∧ m'.indexOf r' = .ok (T.index i : Int) ∧
      i < m.size ∧ T.index i < m'.size) ∨
    ∃ e e', m.indexOf r = .error e ∧ m'.indexOf r' = .error e' := by
  obtain ⟨index, rfl, rfl⟩ := hr
  have hrange := h.inRange_iff index
  cases hin : m.inRange index with
  | true =>
    rw [hin] at hrange
    obtain ⟨hnonneg, hlt⟩ := Model.inRange_iff.mp hin
    obtain ⟨i, rfl⟩ := Int.eq_ofNat_of_zero_le hnonneg
    refine .inl ⟨i, by rw [indexOf, if_pos hin], ?_, by omega, ?_⟩
    · rw [renumberIndex_natCast] at hrange
      rw [renumberIndex_natCast, indexOf, if_pos hrange]
    · have hlt' := (Model.inRange_iff.mp hrange).2
      rw [renumberIndex_natCast] at hlt'
      omega
  | false =>
    rw [hin] at hrange
    refine .inr ⟨⟨.unknownReference (Ref.back index).text, none⟩,
      ⟨.unknownReference (Ref.back (renumberIndex T.index index)).text, none⟩, ?_, ?_⟩
    · rw [indexOf, hin]
      rfl
    · rw [indexOf, hrange]
      rfl

end Model.Tied

namespace Abreast

/-- Names are made from what is there, so nothing is said of them. -/
theorem deconflict {name name' : String} :
    Abreast T (Build.deconflict name) (Build.deconflict name') fun _ _ => True := by
  constructor
  intro u v huv
  obtain ⟨notes, hu⟩ := exec_deconflict name u
  obtain ⟨notes', hv⟩ := exec_deconflict name' v
  rw [hu, hv]
  exact .answer _ _ _ _ ⟨huv.models, huv.docs, huv.docs'⟩ trivial

/-- Remarks are of no account. -/
theorem note {n n' : Note} : Abreast T (Build.note n) (Build.note n') fun _ _ => True :=
  ⟨fun _ _ huv => .answer _ _ _ _ ⟨huv.models, huv.docs, huv.docs'⟩ trivial⟩

/-- **Adding an item on both sides**, the same but for names once its references have been moved. -/
theorem addItem {item item' : Item} {path : Option String}
    (hitem : item'.nameless = (item.relocate T.move).nameless)
    (hpath : ∀ p, path = some p → T.extra.get? p = none) :
    Abreast T (Build.addItem item path) (Build.addItem item' path) T.Placed := by
  constructor
  intro u v huv
  by_cases hfree : ∀ p, path = some p → u.model.namedReferences.get? p = none
  · have hfree' : ∀ p, path = some p → v.model.namedReferences.get? p = none := by
      intro p hp
      rw [huv.models.paths, hfree p hp]
      exact hpath p hp
    obtain ⟨notes, hu⟩ := exec_addItem huv.models.unfinished hfree
    obtain ⟨notes', hv⟩ := exec_addItem huv.models.unfinished' hfree'
    rw [hu, hv]
    refine .answer _ _ _ _ ⟨?_, huv.docs, huv.docs'⟩ ⟨u.model.size, rfl, ?_⟩
    · exact huv.models.withItem hitem fun p hp => ⟨hpath p hp, hfree p hp⟩
    · have hlast : T.index u.model.size = v.model.size := huv.models.fresh 0
      rw [renumberIndex_natCast, hlast]
  · -- the path is taken on both sides
    push Not at hfree
    obtain ⟨p, rfl, htaken⟩ := hfree
    obtain ⟨index, hindex⟩ := Option.ne_none_iff_exists'.mp htaken
    have hindex' : v.model.namedReferences.get? p = some (renumberIndex T.index index) := by
      rw [huv.models.paths, hindex]
    obtain ⟨e, w, hu⟩ := exec_addItem_taken hindex
    obtain ⟨e', w', hv⟩ := exec_addItem_taken hindex'
    rw [hu, hv]
    exact .fail e e' w w'

theorem addScalar {specName generatedName generatedName' : String} {path : Option String}
    {scalar : Scalar} (hpath : ∀ p, path = some p → T.extra.get? p = none) :
    Abreast T (Build.addScalar specName generatedName path scalar)
      (Build.addScalar specName generatedName' path scalar) T.Placed :=
  addItem rfl hpath

/-- Corresponding items are changed alike. -/
theorem modifyItem {r r' : Ref} {c : Item → Item} (hr : T.Placed r r') (hc : Item.Blind c) :
    Abreast T (Build.modifyItem r c) (Build.modifyItem r' c) fun _ _ => True := by
  constructor
  intro u v huv
  rcases huv.models.indexOf_placed hr with ⟨i, hi, hi', hlt, hlt'⟩ | ⟨e, e', he, he'⟩
  · rw [exec_modifyItem hi hlt, exec_modifyItem hi' hlt']
    exact .answer _ _ _ _ ⟨huv.models.withChange hc i, huv.docs, huv.docs'⟩ trivial
  · rw [Build.modifyItem, Build.modifyItem, exec_bind_model, exec_bind_model, exec_bind, exec_bind,
      exec_lift, exec_lift, he, he']
    exact .fail e e' u v

/-- The names of corresponding items are there on both sides or on none; what they are is of no
account. -/
theorem nameOf {r r' : Ref} {f : String → Build γ} {g : String → Build δ} {Q : γ → δ → Prop}
    (hr : T.Placed r r') (hf : ∀ name name', Abreast T (f name) (g name') Q) :
    Abreast T (Build.model >>= fun m => Build.lift (m.nameOf r) >>= f)
      (Build.model >>= fun m => Build.lift (m.nameOf r') >>= g) Q := by
  refine model fun m m' hm => ?_
  rcases hm.indexOf_placed hr with ⟨i, hi, hi', hlt, hlt'⟩ | ⟨e, e', he, he'⟩
  · obtain ⟨name, hname⟩ := Model.nameOf_ok hi (by omega)
    obtain ⟨name', hname'⟩ := Model.nameOf_ok hi' (by omega)
    rw [hname, hname']
    exact hf name name'
  · have hu : m.nameOf r = .error e := by rw [Model.nameOf, Model.resolve, he]; rfl
    have hv : m'.nameOf r' = .error e' := by rw [Model.nameOf, Model.resolve, he']; rfl
    rw [hu, hv]
    exact throw

/-- A path that is not extra leads to corresponding items, or nowhere on both sides. -/
theorem named {path : String} (hpath : T.extra.get? path = none) :
    Abreast T (Build.named path) (Build.named path) T.Placed := by
  refine model fun m m' hm => ?_
  rw [Model.named, Model.named, hm.paths]
  cases m.namedReferences.get? path with
  | none =>
    dsimp only
    rw [hpath]
    exact throw
  | some index => exact pure ⟨index, rfl, rfl⟩

/-- A path that is not extra is registered for corresponding items. -/
theorem registerPath {path : String} {r r' : Ref} (hr : T.Placed r r')
    (hpath : T.extra.get? path = none) :
    Abreast T (Build.registerPath path r) (Build.registerPath path r') fun _ _ => True := by
  obtain ⟨index, rfl, rfl⟩ := hr
  constructor
  intro u v huv
  have hcheck : ∀ w : Workbench, w.model.finalized = false →
      exec (checkMutable "register named reference") w = (.ok (), w) := by
    intro w hw
    simp only [checkMutable, exec_bind_model, hw, if_false, exec_pure, Bool.false_eq_true]
  rw [Build.registerPath, Build.registerPath, exec_bind_ok (hcheck u huv.models.unfinished),
    exec_bind_ok (hcheck v huv.models.unfinished')]
  simp only [exec_bind_model, huv.models.paths path]
  cases hget : u.model.namedReferences.get? path with
  | none =>
    simp only [hpath]
    refine .answer _ _ _ _ ⟨huv.models.withPath hpath fun old hold => ?_, huv.docs, huv.docs'⟩ trivial
    rw [hget] at hold
    cases hold
  | some old =>
    by_cases hold : old = index
    · subst hold
      simp only [ne_eq, not_true_eq_false, if_false]
      refine .answer _ _ _ _ ⟨huv.models.withPath hpath fun i hi => ?_, huv.docs, huv.docs'⟩ trivial
      rw [hget] at hi
      exact (Option.some.inj hi).symm
    · have hold' : renumberIndex T.index old ≠ renumberIndex T.index index :=
        fun h => hold (renumberIndex_injective huv.models.injective h)
      simp only [ne_eq, hold, not_false_eq_true, if_true, hold', exec_problem]
      exact .fail _ _ _ _

/-- An operation is kept on both sides, its references moved. -/
theorem operate {o o' : Operation} (ho : o' = o.relocate T.move) :
    Abreast T (modifyModel fun m => m.withOperation o) (modifyModel fun m => m.withOperation o')
      fun _ _ => True :=
  ⟨fun _ _ huv => .answer _ _ _ _ ⟨ho ▸ huv.models.withOperation, huv.docs, huv.docs'⟩ trivial⟩

/-- Variants are kept on both sides under one path, their references moved. -/
theorem share {path : String} {vs vs' : List Variant}
    (hvs : vs' = vs.map (Variant.relocate T.move)) :
    Abreast T (modifyModel fun m => m.withShared path vs)
      (modifyModel fun m => m.withShared path vs') fun _ _ => True :=
  ⟨fun _ _ huv => .answer _ _ _ _ ⟨hvs ▸ huv.models.withShared path, huv.docs, huv.docs'⟩ trivial⟩

/-- The shared variants of a path are moved, or missing on both sides. -/
theorem cachedVariants {path : String} :
    Abreast T (Build.model >>= fun m => Build.lift (m.cachedVariants path))
      (Build.model >>= fun m => Build.lift (m.cachedVariants path))
      fun vs vs' => vs' = vs.map (Variant.relocate T.move) := by
  refine model fun m m' hm => ?_
  rw [Model.cachedVariants, Model.cachedVariants, hm.shared, relocateShared,
    Table.get?_mapValues]
  cases m.responseVariants.get? path with
  | none => exact throw
  | some vs => exact pure rfl

/-- The implicit header is kept on both sides. -/
theorem accept {r r' : Ref} (hr : r' = T.move r) :
    Abreast T (modifyModel fun m => m.withAccept r) (modifyModel fun m => m.withAccept r')
      fun _ _ => True :=
  ⟨fun _ _ huv => .answer _ _ _ _ ⟨hr ▸ huv.models.withAccept, huv.docs, huv.docs'⟩ trivial⟩

end Abreast

end TypedApi
