import TypedApi.Proofs.Build.Step
import TypedApi.Proofs.Name.Safe
/-!
Builds that go along with a standard.

`Along S m x Q` says of a build `x` on a model `m` that meets the standard `S`:
whether it answers or fails, it takes the model along steps only, and if it
answers, the answer stands in the relation `Q` to the model afterwards. The
rules follow the way builds are written, one for each way to put two parts
together, and the lemmas after them give each primitive its answer.
-/

set_option autoImplicit false

namespace TypedApi

open Build

variable {α β : Type} {S : Standard} {m : Model}

/-- From a model that meets the standard, a build takes steps only, and what it answers is in the
given relation to the model afterwards. -/
structure Along (S : Standard) (m : Model) (x : Build α) (Q : α → Model → Prop) : Prop where
  runs : S.Sound m → ∀ w, w.model = m →
    Steps S m (exec x w).2.model ∧ ∀ a, (exec x w).1 = .ok a → Q a (exec x w).2.model

namespace Along

/-! ## Rules -/

theorem weaken {x : Build α} {Q R : α → Model → Prop} (hx : Along S m x Q)
    (h : ∀ a m', Q a m' → R a m') : Along S m x R := by
  constructor
  intro hm w hw
  obtain ⟨hsteps, hQ⟩ := hx.runs hm w hw
  exact ⟨hsteps, fun a ha => h a _ (hQ a ha)⟩

/-- A fact about models that meet the standard may be used at any point. -/
theorem sound {x : Build α} {Q : α → Model → Prop} (h : S.Sound m → Along S m x Q) :
    Along S m x Q :=
  ⟨fun hm => (h hm).runs hm⟩

/-- A build that leaves the model alone. -/
theorem still {x : Build α} {Q : α → Model → Prop} (hx : Still x) (h : ∀ a, Q a m) :
    Along S m x Q := by
  constructor
  intro _ w hw
  have hstill := hx.model_eq w
  rw [hw] at hstill
  rw [hstill]
  exact ⟨.refl, fun a _ => h a⟩

theorem pure {a : α} {Q : α → Model → Prop} (h : Q a m) : Along S m (Pure.pure a) Q := by
  constructor
  rintro _ w rfl
  exact ⟨.refl, fun b hb => by cases hb; exact h⟩

/-- A build that fails at once answers nothing. -/
theorem throw {e : Failure} {Q : α → Model → Prop} :
    Along S m (MonadExcept.throw e : Build α) Q := by
  constructor
  rintro _ w rfl
  exact ⟨.refl, fun a ha => by cases ha⟩

theorem problem {p : Problem} {Q : α → Model → Prop} : Along S m (Build.problem p : Build α) Q :=
  throw

/-- A sequence: the second part starts on the model that the first one leaves, which meets the
standard again and has lost no item. -/
theorem bind {x : Build α} {f : α → Build β} {Q : α → Model → Prop} {R : β → Model → Prop}
    (hx : Along S m x Q)
    (hf : ∀ a m', m.size ≤ m'.size → Q a m' → Along S m' (f a) R) : Along S m (x >>= f) R := by
  constructor
  intro hm w hw
  obtain ⟨hsteps, hQ⟩ := hx.runs hm w hw
  rw [exec_bind]
  rcases h : exec x w with ⟨_ | a, u⟩
  · rw [h] at hsteps
    exact ⟨hsteps, fun b hb => by cases hb⟩
  · rw [h] at hsteps hQ
    -- steps keep the standard, so the second part may start from where the first one ended
    obtain ⟨hrest, hR⟩ := (hf a u.model hsteps.size_le (hQ a rfl)).runs (hm.steps hsteps) u rfl
    exact ⟨hsteps.trans hrest, hR⟩

/-- A sequence whose first part leaves the model alone; what that part answers may be used. -/
theorem skip_answer {x : Build α} {f : α → Build β} {R : β → Model → Prop} (hx : Still x)
    (hf : ∀ a, Answers x a → Along S m (f a) R) : Along S m (x >>= f) R := by
  constructor
  intro hm w hw
  have hstill := hx.model_eq w
  rw [hw] at hstill
  rw [exec_bind]
  rcases h : exec x w with ⟨_ | a, u⟩
  · rw [h] at hstill
    exact ⟨by rw [hstill], fun b hb => by cases hb⟩
  · rw [h] at hstill
    exact (hf a ⟨w, u, h⟩).runs hm u hstill

/-- A sequence whose first part leaves the model alone. -/
theorem skip {x : Build α} {f : α → Build β} {R : β → Model → Prop} (hx : Still x)
    (hf : ∀ a, Along S m (f a) R) : Along S m (x >>= f) R :=
  skip_answer hx fun a _ => hf a

/-- A sequence that starts by reading the model. -/
theorem model {f : Model → Build β} {R : β → Model → Prop} (hf : Along S m (f m) R) :
    Along S m (Build.model >>= f) R := by
  constructor
  rintro hm w rfl
  exact hf.runs hm w rfl

theorem ite {c : Prop} [Decidable c] {x y : Build α} {Q : α → Model → Prop}
    (hx : c → Along S m x Q) (hy : ¬c → Along S m y Q) : Along S m (if c then x else y) Q := by
  split
  · exact hx ‹_›
  · exact hy ‹_›

/-- One build for each element of a list. What is said of an answer must stay true while items are
added. -/
theorem mapM {f : α → Build β} {P : β → Nat → Prop} {l : List α}
    (hmono : ∀ b n k, n ≤ k → P b n → P b k)
    (hf : ∀ a ∈ l, ∀ m', m.size ≤ m'.size → Along S m' (f a) fun b m'' => P b m''.size) :
    Along S m (l.mapM f) fun bs m' => ∀ b ∈ bs, P b m'.size := by
  induction l generalizing m with
  | nil => exact pure (by simp)
  | cons a l ih =>
    rw [List.mapM_cons]
    refine bind (hf a List.mem_cons_self m (Nat.le_refl _)) fun b m₁ h₁ hb => ?_
    refine bind (ih fun a' ha' m' hm' =>
      hf a' (List.mem_cons_of_mem _ ha') m' (Nat.le_trans h₁ hm')) fun bs m₂ h₂ hbs => ?_
    -- the first answer was given for fewer items; the others are fine as they are
    refine pure fun b' hb' => ?_
    rcases List.mem_cons.mp hb' with rfl | hb'
    · exact hmono _ _ _ h₂ hb
    · exact hbs b' hb'

/-- One build for each element of a list, for what it does alone. -/
theorem forM {f : α → Build PUnit} {l : List α}
    (hf : ∀ a ∈ l, ∀ m', m.size ≤ m'.size → Along S m' (f a) fun _ _ => True) :
    Along S m (l.forM f) fun _ _ => True := by
  induction l generalizing m with
  | nil => exact pure trivial
  | cons a l ih =>
    refine bind (hf a List.mem_cons_self m (Nat.le_refl _)) fun _ m₁ h₁ _ => ?_
    exact ih fun a' ha' m' hm' => hf a' (List.mem_cons_of_mem _ ha') m' (Nat.le_trans h₁ hm')

/-- What a run did: it took steps, and the model that it left meets the standard again. -/
theorem steps_of_exec {x : Build α} {Q : α → Model → Prop} {w w' : Workbench}
    {answer : Except Failure α} (hx : Along S w.model x Q) (hm : S.Sound w.model)
    (h : exec x w = (answer, w')) : Steps S w.model w'.model ∧ S.Sound w'.model := by
  have hsteps := (hx.runs hm w rfl).1
  rw [h] at hsteps
  exact ⟨hsteps, hm.steps hsteps⟩

end Along

/-! ## The primitives -/

namespace Build

/-- A safe and free name costs at most a remark. -/
theorem exec_deconflict (name : String) (w : Workbench) :
    ∃ notes, exec (deconflict name) w =
      (.ok (Name.deconflict name w.model.items.keys), { w with notes := notes }) := by
  simp only [deconflict, exec_bind_model]
  split
  · exact ⟨_, rfl⟩
  · exact ⟨_, rfl⟩

/-- **Adding an item**: either nothing has changed, or the item stands at the end of an unfinished
model, under a free name made from the one proposed and under a free path. -/
theorem addItem_cases (item : Item) (path : Option String) (w : Workbench) :
    (∃ e w', exec (addItem item path) w = (.error e, w') ∧ w'.model = w.model) ∨
    ∃ name notes, name = Name.deconflict item.generatedName w.model.items.keys ∧
      w.model.finalized = false ∧
      w.model.items.get? name = none ∧
      (∀ p, path = some p → w.model.namedReferences.get? p = none) ∧
      exec (addItem item path) w =
        (.ok (.back w.model.size),
          { w with
            notes := notes
            model := w.model.withItem { item with generatedName := name } path }) := by
  by_cases hfin : w.model.finalized = true
  · refine .inl ⟨⟨.finalized "add item", none⟩, w, ?_, rfl⟩
    simp only [addItem, checkMutable, exec_bind, exec_model, hfin, if_true, exec_problem]
  · obtain ⟨notes, hname⟩ := exec_deconflict item.generatedName w
    have hcheck : exec (checkMutable "add item") w = (.ok (), w) := by
      simp only [checkMutable, exec_bind_model, hfin, if_false, exec_pure, Bool.false_eq_true]
    rw [addItem, exec_bind_ok hcheck, exec_bind_model, exec_bind_ok hname, exec_bind_model]
    -- what is left are two checks: that the name is free, and that the path is if there is one
    generalize hn : Name.deconflict item.generatedName w.model.items.keys = name
    cases hget : w.model.items.get? name with
    | some old => exact .inl ⟨_, _, rfl, rfl⟩
    | none =>
      cases path with
      | none => exact .inr ⟨name, notes, rfl, by simpa using hfin, hget, by simp, rfl⟩
      | some p =>
        cases hp : w.model.namedReferences.get? p with
        | some old =>
          refine .inl ⟨⟨.duplicateName p old w.model.size, none⟩, { w with notes }, ?_, rfl⟩
          simp [hp]
        | none =>
          refine .inr ⟨name, notes, rfl, by simpa using hfin, hget, ?_, by simp [hp]; rfl⟩
          rintro q hq
          cases hq
          exact hp

/-- An item that has been added stands at the end, under a name of its own. -/
theorem of_exec_addItem {item : Item} {path : Option String} {w w' : Workbench} {r : Ref}
    (h : exec (addItem item path) w = (.ok r, w')) :
    ∃ name, r = .back w.model.size ∧
      w'.model = w.model.withItem { item with generatedName := name } path := by
  rcases addItem_cases item path w with ⟨e, u, hfail, _⟩ | ⟨name, notes, _, _, _, _, hok⟩
  · rw [hfail] at h
    cases h
  · rw [hok] at h
    cases h
    exact ⟨name, rfl, rfl⟩

/-- An item is added to an unfinished model if its path is free. -/
theorem exec_addItem {item : Item} {path : Option String} {w : Workbench}
    (hopen : w.model.finalized = false)
    (hpath : ∀ p, path = some p → w.model.namedReferences.get? p = none) :
    ∃ notes, exec (addItem item path) w =
      (.ok (.back w.model.size),
        { w with
          notes := notes
          model := w.model.withItem
            { item with generatedName := Name.deconflict item.generatedName w.model.items.keys }
            path }) := by
  obtain ⟨notes, hname⟩ := exec_deconflict item.generatedName w
  have hcheck : exec (checkMutable "add item") w = (.ok (), w) := by
    simp only [checkMutable, exec_bind_model, hopen, if_false, exec_pure, Bool.false_eq_true]
  -- the name was made free just before, so the check for a name given twice never fires
  have hfree : w.model.items.get? (Name.deconflict item.generatedName w.model.items.keys) = none :=
    Table.get?_eq_none_iff.mpr (Name.deconflict_notMem _ _)
  refine ⟨notes, ?_⟩
  rw [addItem, exec_bind_ok hcheck, exec_bind_model, exec_bind_ok hname, exec_bind_model]
  cases path with
  | none =>
    simp only [hfree, Option.bind_none]
    rfl
  | some p =>
    simp only [hfree, Option.bind_some, hpath p rfl, Option.map_none]
    rfl

/-- An item is not added to a finished model. -/
theorem exec_addItem_finalized {item : Item} {path : Option String} {w : Workbench}
    (h : w.model.finalized = true) :
    exec (addItem item path) w = (.error ⟨.finalized "add item", none⟩, w) := by
  simp only [addItem, checkMutable, exec_bind, exec_model, h, if_true, exec_problem]

/-- An item is not added under a path that is taken, and the failure says so. -/
theorem exec_addItem_duplicate {item : Item} {p : String} {old : Int} {w : Workbench}
    (hopen : w.model.finalized = false) (hp : w.model.namedReferences.get? p = some old) :
    ∃ notes, exec (addItem item (some p)) w =
      (.error ⟨.duplicateName p old w.model.size, none⟩, { w with notes := notes }) := by
  obtain ⟨notes, hname⟩ := exec_deconflict item.generatedName w
  have hcheck : exec (checkMutable "add item") w = (.ok (), w) := by
    simp only [checkMutable, exec_bind_model, hopen, if_false, exec_pure, Bool.false_eq_true]
  have hfree : w.model.items.get? (Name.deconflict item.generatedName w.model.items.keys) = none :=
    Table.get?_eq_none_iff.mpr (Name.deconflict_notMem _ _)
  refine ⟨notes, ?_⟩
  rw [addItem, exec_bind_ok hcheck, exec_bind_model, exec_bind_ok hname, exec_bind_model]
  simp [hfree, hp]

/-- An item that is added under a path is what the path leads to. -/
theorem addItem_registers {item : Item} {path : String} {w w' : Workbench} {r : Ref}
    (h : exec (addItem item (some path)) w = (.ok r, w')) :
    r = .back w.model.size ∧ w'.model.namedReferences.get? path = some (w.model.size : Int) ∧
      w'.model.size = w.model.size + 1 := by
  rcases addItem_cases item (some path) w with ⟨e, u, hfail, _⟩ | ⟨name, notes, _, _, _, _, hok⟩
  · rw [hfail] at h
    cases h
  · rw [hok] at h
    cases h
    exact ⟨rfl, Table.get?_insert_self _ _ _, by simp [Model.size, Model.withItem]⟩

/-- What registering a path comes to, by what the path leads to and what the reference holds. -/
theorem exec_registerPath (path : String) (r : Ref) (w : Workbench) :
    exec (registerPath path r) w =
      if w.model.finalized then (.error ⟨.finalized "register named reference", none⟩, w)
      else
        match r.index? with
        | none => (.error ⟨.unknownReference r.text, none⟩, w)
        | some index =>
          match w.model.namedReferences.get? path with
          | some old =>
            if old ≠ index then (.error ⟨.duplicateName path old index, none⟩, w)
            else (.ok (), { w with model := w.model.withPath path index })
          | none => (.ok (), { w with model := w.model.withPath path index }) := by
  cases hfin : w.model.finalized with
  | true => simp only [registerPath, checkMutable, exec_bind, exec_model, hfin, if_true, exec_problem]
  | false =>
    have hcheck : exec (checkMutable "register named reference") w = (.ok (), w) := by
      simp only [checkMutable, exec_bind_model, hfin, if_false, exec_pure, Bool.false_eq_true]
    rw [registerPath, exec_bind_ok hcheck, if_neg (by simp)]
    cases r with
    | forward p => rfl
    | back index | resolved index =>
      simp only [exec_bind_model, Ref.index?]
      cases w.model.namedReferences.get? path with
      | none => rfl
      | some old =>
        by_cases hold : old = index
        · subst hold
          simp only [ne_eq, not_true_eq_false, if_false, exec_modifyModel]
          rfl
        · simp [hold]

/-- **Registering a path**: either nothing has changed, or the path of an unfinished model, free or
with the same index, leads to the index of the reference. -/
theorem registerPath_cases (path : String) (r : Ref) (w : Workbench) :
    (∃ e, exec (registerPath path r) w = (.error e, w)) ∨
    ∃ index, r.index? = some index ∧ w.model.finalized = false ∧
      (∀ old, w.model.namedReferences.get? path = some old → old = index) ∧
      exec (registerPath path r) w = (.ok (), { w with model := w.model.withPath path index }) := by
  rw [exec_registerPath]
  cases w.model.finalized with
  | true => exact .inl ⟨_, rfl⟩
  | false =>
    cases r.index? with
    -- a forward reference has no index that could be registered
    | none => exact .inl ⟨_, rfl⟩
    | some index =>
      cases w.model.namedReferences.get? path with
      | none => exact .inr ⟨index, rfl, rfl, by simp, rfl⟩
      | some old =>
        by_cases hold : old = index
        · exact .inr ⟨index, rfl, rfl, by simp [hold], by simp [hold]⟩
        · exact .inl ⟨⟨.duplicateName path old index, none⟩, by simp [hold]⟩

/-- What is named by a value is named by the path that it is. -/
theorem of_exec_namedBy {reference : Document} {w w' : Workbench} {r : Ref}
    (h : exec (namedBy reference) w = (.ok r, w')) :
    ∃ path index, reference = .text path ∧ w.model.namedReferences.get? path = some index ∧
      r = .back index ∧ w' = w := by
  rw [namedBy.eq_def] at h
  split at h
  · rename_i path
    rw [named, exec_bind_model, exec_lift, Model.named] at h
    cases hget : w.model.namedReferences.get? path with
    | none =>
      rw [hget] at h
      cases h
    | some index =>
      rw [hget] at h
      cases h
      exact ⟨path, index, rfl, hget, rfl, rfl⟩
  · split at h <;> cases h

end Build

namespace Along

/-- An item that meets the standard is added, and referred to by its place. -/
theorem addItem {item : Item} {path : Option String} (hfits : S.Fits m.size item.shape) :
    Along S m (Build.addItem item path) fun r m' => S.Places m'.size r := by
  constructor
  rintro _ w rfl
  rcases addItem_cases item path w with ⟨e, w', h, hm⟩ | ⟨name, notes, hname, hfin, hget, hpath, h⟩
  · rw [h, hm]
    exact ⟨.refl, fun a ha => by cases ha⟩
  · rw [h]
    refine ⟨.single (.add _ { item with generatedName := name } path _ hfin hname hget hpath hfits),
      fun r hr => ?_⟩
    cases hr
    have hone : (w.model.withItem { item with generatedName := name } path).size
        = w.model.size + 1 := by simp [Model.size, Model.withItem]
    rw [hone]
    exact Standard.places_last _

theorem addScalar {specName generatedName : String} {path : Option String} {scalar : Scalar} :
    Along S m (Build.addScalar specName generatedName path scalar)
      fun r m' => S.Places m'.size r :=
  addItem (Standard.fits_scalar _ _)

/-- A remark on an item keeps its shape. -/
theorem modifyItem {r : Ref} {f : Item → Item} (hf : Item.Remark f) :
    Along S m (Build.modifyItem r f) fun _ _ => True := by
  constructor
  rintro _ w rfl
  rw [Build.modifyItem, exec_bind_model, exec_bind, exec_lift]
  cases w.model.indexOf r with
  | error e => exact ⟨.refl, fun _ _ => trivial⟩
  | ok index =>
    dsimp only
    -- an index that is no position leaves the items as they are
    cases w.model.position? index with
    | none => exact ⟨.refl, fun _ _ => trivial⟩
    | some i => exact ⟨.single (.change _ i f hf), fun _ _ => trivial⟩

/-- What a registered path leads to meets the standard. -/
theorem lookup {path : String} {index : Int} (h : m.namedReferences.get? path = some index)
    (hm : S.Sound m) : S.Places m.size (.back index) :=
  ⟨hm.registered _ (Table.mem_of_get?_eq_some h), index, rfl⟩

theorem named {path : String} :
    Along S m (Build.named path) fun r m' => S.Places m'.size r := by
  refine sound fun hm => model ?_
  rw [Model.named]
  split
  · exact pure (lookup ‹_› hm)
  · exact throw

theorem namedBy {path : Document} :
    Along S m (Build.namedBy path) fun r m' => S.Places m'.size r := by
  rw [Build.namedBy.eq_def]
  split
  · exact named
  · exact ite (fun _ => problem) fun _ => throw

/-- A path is registered for a reference whose index meets the standard. -/
theorem registerPath {path : String} {r : Ref}
    (hr : ∀ index, r.index? = some index → S.ref m.size (.back index)) :
    Along S m (Build.registerPath path r) fun _ _ => True := by
  constructor
  rintro _ w rfl
  refine ⟨?_, fun _ _ => trivial⟩
  rcases registerPath_cases path r w with ⟨e, h⟩ | ⟨index, hindex, hfin, hold, h⟩
  · rw [h]
  · rw [h]
    exact .single (.register _ path index hfin hold (hr index hindex))

/-- The index of a reference that a standard places is its place. -/
theorem ref_of_places {n : Nat} {r : Ref} (hr : S.Places n r) :
    ∀ index, r.index? = some index → S.ref n (.back index) := by
  intro index hindex
  obtain ⟨i, rfl⟩ := hr.back
  cases hindex
  exact hr.ref

end Along

end TypedApi
