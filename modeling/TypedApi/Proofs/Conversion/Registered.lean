import TypedApi.Proofs.Conversion.Calls
/-!
Where the registered paths of a model put together by hand lead.

Items are added, paths registered and the model finished, in any order and with
any arguments. A lookup checks an index that a reference holds, but trusts the
table of paths. What an added item is registered under leads to that item. What
is registered by hand is stored as it is: nothing asks whether the index is
that of an item.

So every registered index is that of an item, unless it was registered by hand
at a moment at which no item had it. Only through a path of that kind does a
lookup come to an index without an item, and only from such a path can a
finished model hold a reference that leads nowhere.
-/

set_option autoImplicit false

namespace TypedApi

open Build

/-- An index that an item has. -/
def Model.Live (m : Model) (index : Int) : Prop :=
  0 ≤ index ∧ index < m.size

/-- A model in which every registered path leads to an item or is one of the strays, and which, once
it is finished, refers only to items and to what strays lead to. -/
structure Model.Traced (stray : String → Int → Prop) (m : Model) : Prop where
  registered : ∀ p ∈ m.namedReferences, m.Live p.2 ∨ stray p.1 p.2
  settled : m.finalized = true → ∀ r ∈ m.refs, ∃ index, r = .resolved index ∧
    (m.Live index ∨ ∃ path, stray path index)

variable {stray : String → Int → Prop} {m : Model}

/-! ## Lookups -/

/-- When an item is added, the items before it keep their indices, and it gets the next one. -/
theorem Model.live_withItem {index : Int} {item : Item} {path : Option String} :
    (m.withItem item path).Live index ↔ m.Live index ∨ index = m.size := by
  have hsize : (m.withItem item path).size = m.size + 1 := by simp [Model.size, Model.withItem]
  rw [Model.Live, Model.Live, hsize]
  omega

/-- A lookup answers with the index of an item, unless it goes by a stray path. -/
theorem Model.Traced.indexOf (h : m.Traced stray) {r : Ref} {index : Int}
    (hindex : m.indexOf r = .ok index) :
    m.Live index ∨ ∃ path, r = .forward path ∧ stray path index := by
  cases r with
  | forward path =>
    -- the table of paths is trusted
    rw [Model.indexOf] at hindex
    split at hindex
    · cases hindex
      exact (h.registered _ (Table.mem_of_get?_eq_some ‹_›)).imp_right fun hstray =>
        ⟨path, rfl, hstray⟩
    · cases hindex
  | back i | resolved i =>
    -- an index is checked
    rw [Model.indexOf] at hindex
    split at hindex
    · cases hindex
      exact .inl (Model.inRange_iff.mp ‹_›)
    · cases hindex

/-! ## One call -/

theorem Model.traced_empty (bounded : Bool) :
    Model.Traced stray { boundedIntegers := bounded } where
  registered := by simp
  settled := by simp

/-- An added item is what its path leads to. -/
theorem Model.Traced.withItem {item : Item} {path : Option String} (h : m.Traced stray)
    (hopen : m.finalized = false) : (m.withItem item path).Traced stray := by
  refine ⟨fun p hp => ?_, fun hfinal => ?_⟩
  · have hold : p ∈ m.namedReferences → (m.withItem item path).Live p.2 ∨ stray p.1 p.2 :=
      fun hp => (h.registered p hp).imp_left fun hlive => Model.live_withItem.mpr (.inl hlive)
    cases path with
    | none => exact hold hp
    | some q =>
      rcases Table.mem_insert hp with rfl | hp
      · exact .inl (Model.live_withItem.mpr (.inr rfl))
      · exact hold hp
  · -- an item is added to an unfinished model only, and that does not finish it
    exact absurd (hfinal.symm.trans hopen) (by simp)

/-- A path may be registered for the index of an item, and any other registration is a stray. -/
theorem Model.Traced.withPath {path : String} {index : Int} (h : m.Traced stray)
    (hopen : m.finalized = false) (hindex : m.Live index ∨ stray path index) :
    (m.withPath path index).Traced stray := by
  refine ⟨fun p hp => ?_, fun hfinal => ?_⟩
  · rcases Table.mem_insert hp with rfl | hp
    · exact hindex
    · exact h.registered p hp
  · exact absurd (hfinal.symm.trans hopen) (by simp)

/-- Finishing resolves every reference to what it led to, whether the variants get their names or
not. -/
theorem Model.Traced.finish (h : m.Traced stray) : m.finish.1.Traced stray := by
  by_cases hopen : m.finalized = false
  · rcases Model.finish_cases hopen with ⟨e, hfinish, _⟩ | ⟨hfinish, hrefs⟩
    · rw [hfinish]
      exact h
    · rw [hfinish]
      -- naming the variants changes neither the paths nor the references nor how many items there are
      have hsame := Model.unnamed_nameAll m.settled
      have hpaths := congrArg Model.namedReferences hsame
      have hsize := congrArg Model.size hsame
      have hslots := congrArg Model.refs hsame
      rw [Model.size_unnamed, Model.size_unnamed] at hsize
      rw [Model.refs_unnamed, Model.refs_unnamed] at hslots
      have hlive : ∀ index, m.Live index → m.settled.nameAll.1.Live index := by
        intro index hindex
        rw [Model.Live, hsize, Model.settled]
        exact (Model.size_relocate _ m).symm ▸ hindex
      refine ⟨fun p hp => ?_, fun _ r hr => ?_⟩
      · have hp : p ∈ m.namedReferences := by
          rw [← show m.settled.namedReferences = m.namedReferences from rfl]
          exact hpaths ▸ hp
        exact (h.registered p hp).imp_left (hlive p.2)
      · rw [hslots, Model.settled] at hr
        have hmap : (m.relocate (settle m.resolved)).refs = m.refs.map (settle m.resolved) :=
          Model.refs_relocate _ _
        obtain ⟨s, hs, rfl⟩ := List.mem_map.mp (hmap ▸ hr)
        obtain ⟨index, hindex, heq⟩ := Model.resolved_eq_ok_iff.mp (hrefs s hs)
        refine ⟨index, heq, ?_⟩
        rcases h.indexOf hindex with hindex | ⟨path, _, hstray⟩
        · exact .inl (hlive index hindex)
        · exact .inr ⟨path, hstray⟩
  · rw [Model.finish, if_pos (by simpa using hopen)]
    exact h

namespace Call

/-- A call that puts a model together, item by item and path by path, or finishes it. -/
def assembles : Call → Bool
  | .addItem .. | .addScalar .. | .registerPath .. | .finish => true
  | _ => false

/-- **A call keeps track of strays**, as long as a path that it registers by hand is for the index of
an item or counts as one. -/
theorem traced_run {call : Call} (hcall : call.assembles = true) {w : Workbench}
    (h : w.model.Traced stray)
    (hstray : ∀ path r index, call = .registerPath path r → r.index? = some index →
      w.model.Live index ∨ stray path index) :
    (exec call.run w).2.model.Traced stray := by
  have hadd : ∀ item path, (exec (effect (Build.addItem item path)) w).2.model.Traced stray := by
    intro item path
    rcases addItem_cases item path w with ⟨e, w', hfail, hmodel⟩ | ⟨name, notes, _, hopen, _, _, hok⟩
    · rw [effect, exec_bind_error hfail, hmodel]
      exact h
    · rw [effect, exec_bind_ok hok]
      exact h.withItem hopen
  cases call with
  | addItem item path => exact hadd item path
  | addScalar specName generatedName path scalar => exact hadd _ path
  | registerPath path r =>
    rw [run]
    rcases registerPath_cases path r w with ⟨e, hfail⟩ | ⟨index, hindex, hopen, _, hok⟩
    · rw [hfail]
      exact h
    · rw [hok]
      exact h.withPath hopen (hstray path r index rfl hindex)
  | finish =>
    rw [run, exec_finish]
    exact h.finish
  | _ => cases hcall

/-! ## Any sequence of calls -/

/-- Among some calls, a path is registered by hand for an index that no item has at that moment. -/
def Stray (calls : List Call) (w : Workbench) (path : String) (index : Int) : Prop :=
  ∃ before r later, calls = before ++ .registerPath path r :: later ∧ r.index? = some index ∧
    ¬(after before w).model.Live index

/-- Calls keep track of strays. The induction is on the calls, for any workbench to start from. -/
theorem traced_after {calls : List Call} (hcalls : ∀ call ∈ calls, call.assembles = true)
    {w : Workbench} (h : w.model.Traced stray)
    (hstray : ∀ path index, Stray calls w path index → stray path index) :
    (after calls w).model.Traced stray := by
  induction calls generalizing w with
  | nil => exact h
  | cons call rest ih =>
    refine ih (fun c hc => hcalls c (List.mem_cons_of_mem _ hc))
      (traced_run (hcalls call List.mem_cons_self) h ?_) ?_
    · rintro path r index rfl hindex
      by_cases hlive : w.model.Live index
      · exact .inl hlive
      · exact .inr (hstray path index ⟨[], r, rest, rfl, hindex, hlive⟩)
    · -- a stray among the other calls is one among all of them
      rintro path index ⟨before, r, later, rfl, hindex, hlive⟩
      exact hstray path index ⟨call :: before, r, later, rfl, hindex, hlive⟩

/-- **Every registered index is that of an item or a stray.** After any sequence of calls that add
items, register paths and finish a fresh model, a lookup fails with the reference that is unknown,
or answers with the index of an item, or goes by a path that was registered by hand when there was
no such item; and a finished model refers to its items only, but for what such paths lead to. -/
theorem registered_after (calls : List Call) (bounded : Bool) (docs : Option Docs.Fetcher)
    (hcalls : ∀ call ∈ calls, call.assembles = true) :
    let fresh : Workbench := { model := { boundedIntegers := bounded }, docs }
    let m := (after calls fresh).model
    (∀ p ∈ m.namedReferences, m.Live p.2 ∨ Stray calls fresh p.1 p.2) ∧
    (∀ r, (∃ reference, m.indexOf r = .error ⟨.unknownReference reference, none⟩) ∨
      ∃ index, m.indexOf r = .ok index ∧
        (m.Live index ∨ ∃ path, r = .forward path ∧ Stray calls fresh path index)) ∧
    (m.finalized = true → ∀ r ∈ m.refs, ∃ index, r = .resolved index ∧
      (m.Live index ∨ ∃ path, Stray calls fresh path index)) := by
  intro fresh m
  have htraced : m.Traced (Stray calls fresh) :=
    traced_after hcalls (Model.traced_empty bounded) fun _ _ => id
  refine ⟨htraced.registered, fun r => ?_, htraced.settled⟩
  cases hindex : m.indexOf r with
  | ok index => exact .inr ⟨index, rfl, htraced.indexOf hindex⟩
  | error e =>
    obtain ⟨reference, rfl⟩ := Model.problem_of_indexOf_eq_error hindex
    exact .inl ⟨reference, rfl⟩

/-- A list of texts whose elements are known by a path of their own. -/
def textList : List Call :=
  [.addItem { generatedName := "Names", shape := .list (.forward "#/name") } none,
    .addScalar "Name" "Name" none .string, .registerPath "#/name" (.back 1), .finish]

/-- Where every path is registered for an item, the finished model refers to items only. -/
theorem registered_textList :
    (∀ call ∈ textList, call.assembles = true) ∧
      (after textList {}).model.finalized = true ∧
      (after textList {}).model.refs = [.resolved 1] ∧
      ∀ r ∈ (after textList {}).model.refs, ∃ index, r = .resolved index ∧
        ((after textList {}).model.Live index ∨ ∃ path, Stray textList {} path index) := by
  have hcalls : ∀ call ∈ textList, call.assembles = true := by simp [textList, assembles]
  have hfinal : (after textList {}).model.finalized = true := by decide +kernel
  exact ⟨hcalls, hfinal, by decide +kernel,
    (registered_after textList true none hcalls).2.2 hfinal⟩

/-- A list whose elements are known by a path that is registered for an index without an item. -/
def strayList : List Call :=
  [.addItem { generatedName := "Names", shape := .list (.forward "#/name") } none,
    .registerPath "#/name" (.back 7), .finish]

/-- The stray index is stored, every lookup of its path answers with it, and the model is finished
with a reference that leads nowhere. -/
theorem strayList_dangles :
    (after strayList {}).model.size = 1 ∧
      (after strayList {}).model.namedReferences = [("#/name", 7)] ∧
      (after strayList {}).model.indexOf (.forward "#/name") = .ok 7 ∧
      (after strayList {}).model.finalized = true ∧
      (after strayList {}).model.refs = [.resolved 7] := by
  refine ⟨by decide +kernel, by decide +kernel, rfl, by decide +kernel, by decide +kernel⟩

end Call

end TypedApi
