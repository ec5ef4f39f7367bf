import TypedApi.Proofs.Conversion.Steps
import TypedApi.Proofs.Graph.Finish
import TypedApi.Proofs.Operation.Parallel
/-!
Two conversions of one document.

Every section of the components and every operation is converted alike on
workbenches that are alike, and models that look the same are finished to models
that look the same. So two conversions that start alike end alike: with models
that look the same, with one failure, or with a failure that the slack grants to
one of them alone.
-/

set_option autoImplicit false

namespace TypedApi

open Build

variable {V : Slack} {m m' : Model}

/-! ## The end -/

/-- Plain names are about the names of items and of the arguments for headers only. -/
theorem Model.PlainlyNamed.congr (h : m.PlainlyNamed)
    (hitems : m'.definitions.map Item.generatedName = m.definitions.map Item.generatedName)
    (hheaders : m'.operations.map (fun o => o.headers.map fun p => p.2.generatedName) =
      m.operations.map fun o => o.headers.map fun p => p.2.generatedName) : m'.PlainlyNamed := by
  constructor
  · intro item hitem
    have hname := List.mem_map_of_mem (f := Item.generatedName) hitem
    rw [hitems] at hname
    obtain ⟨old, hold, heq⟩ := List.mem_map.mp hname
    exact heq ▸ h.items old hold
  · intro o ho p hp
    have hnames := List.mem_map_of_mem (f := fun o => o.headers.map fun p => p.2.generatedName) ho
    rw [hheaders] at hnames
    obtain ⟨old, hold, heq⟩ := List.mem_map.mp hnames
    have hname := List.mem_map_of_mem (f := fun p => p.2.generatedName) hp
    rw [← heq] at hname
    obtain ⟨q, hq, hqp⟩ := List.mem_map.mp hname
    exact hqp ▸ h.headers old hold q hq

/-- Finishing keeps the names of items and of arguments, whether it succeeds or fails. -/
theorem Model.PlainlyNamed.finish (h : m.PlainlyNamed) : m.finish.1.PlainlyNamed := by
  by_cases hopen : m.finalized = false
  · rcases Model.finish_cases hopen with ⟨e, hfinish, _⟩ | ⟨hfinish, _⟩
    · rw [hfinish]
      exact h
    · rw [hfinish]
      have hsame := Model.unnamed_nameAll m.settled
      have hitems := congrArg (fun m : Model => m.definitions.map Item.generatedName) hsame
      have hoperations : m.settled.nameAll.1.operations = m.settled.operations :=
        (congrArg Model.operations hsame :)
      refine h.congr ?_ ?_
      · simpa [Model.unnamed, Model.settled, Model.relocate, Item.unnamed, Item.relocate,
          Function.comp_def] using hitems
      · rw [hoperations]
        simp [Model.settled, Model.relocate, Operation.relocate, Parameter.relocate,
          Function.comp_def]
  · rw [Model.finish, if_pos (by simpa using hopen)]
    exact h

/-- Models that look the same are finished to models that look the same, or not at all. -/
theorem Model.Alike.finish (h : Model.Alike V m m') :
    Model.Alike V m.finish.1 m'.finish.1 ∧ m.finish.2 = m'.finish.2 := by
  have hseen := congrArg Model.finish h.seen
  rw [View.finish_model, View.finish_model] at hseen
  exact ⟨⟨(Prod.mk.inj hseen).1, h.plain.finish⟩, (Prod.mk.inj hseen).2⟩

/-- **Models are finished alike.** -/
theorem Parallel.finish : Parallel V Build.finish Build.finish fun _ _ => True := by
  constructor
  intro w w' hw
  obtain ⟨hmodels, hresult⟩ := hw.models.finish
  rw [exec_finish, exec_finish, hresult]
  cases w'.model.finish.2 with
  | some e => exact .fail e _ _
  | none => exact .answer _ _ _ _ ⟨hmodels, hw.sources⟩ trivial

namespace Conversion

/-! ## The shared components -/

theorem gives_section? {components : Document} (hd : V.admits components) (key : String) :
    Gives (section? components key) fun fields => ∀ p ∈ fields, V.admits p.2 :=
  .bind (.entry hd _) fun _ h => .values (Slack.admits_orElse h rfl)

theorem publish_parallel (r : Ref) : Parallel V (publish r) (publish r) fun _ _ => True :=
  .modifyItem Operation.steered_pubTypedef

theorem addSchema_parallel (key : Document) {schema : Document} (hd : V.admits schema) :
    Parallel V (addSchema key schema) (addSchema key schema) Eq := by
  refine .skip (.require _) fun specName => ?_
  have hname := Name.proper_upperCamel specName
  refine .ite (fun _ => Schema.addInline_parallel _ _ _ _ hname hd) fun _ => ?_
  refine .skip (.require _) fun target => .ite (fun _ => ?_) fun _ => ?_
  · exact .bind .note fun _ _ _ => .addScalar hname (Scalar.loosened_wellKnown _)
  · refine .seq (Schema.convert_parallel _ _ _ hname hd) fun inner => ?_
    exact .skip (.textOrNull _) fun docs => .addItem (.refl rfl hname)

theorem insertSchema_parallel {entry : Document × Document} (hd : V.admits entry.2) :
    Parallel V (insertSchema entry) (insertSchema entry) fun _ _ => True :=
  .seq (addSchema_parallel _ hd) publish_parallel

theorem insertParameter_parallel {entry : Document × Document} (hd : V.admits entry.2) :
    Parallel V (insertParameter entry) (insertParameter entry) fun _ _ => True :=
  .seq (Operation.insertComponentParameter_parallel _ hd) publish_parallel

theorem insertBody_parallel {entry : Document × Document} (hd : V.admits entry.2) :
    Parallel V (insertBody entry) (insertBody entry) fun _ _ => True := by
  obtain ⟨key, body⟩ := entry
  refine .skip (.require _) fun _ => ?_
  split
  · exact .seq .namedBy fun _ => .registerPath
  · refine .skip (.require _) fun specName => ?_
    refine .seq (Operation.createBody_parallel _ _ hd) fun r => ?_
    exact .bind (publish_parallel r) fun _ _ _ => .modifyItem (Operation.steered_orDocs _)

section

variable {document : Document} (hdocument : V.admits document)

include hdocument

theorem insertResponse_parallel {entry : Document × Document} (hd : V.admits entry.2) :
    Parallel V (insertResponse document entry) (insertResponse document entry) fun _ _ => True := by
  obtain ⟨key, response⟩ := entry
  refine .skip (.require _) fun _ => ?_
  split
  · exact .seq (Operation.cachedVariantsBy_parallel _) fun _ => .share
  · refine .skip (.require _) fun specName => ?_
    exact .seq (Operation.createVariants_parallel hdocument (Name.proper_upperCamel specName) hd)
      fun _ => .share

theorem insertHeader_parallel {entry : Document × Document} (hd : V.admits entry.2) :
    Parallel V (insertHeader document entry) (insertHeader document entry) fun _ _ => True :=
  .seq (Operation.insertComponentHeader_parallel hdocument _ hd) fun _ => .pure trivial

/-! ## The conversion -/

/-- **A model is constructed alike**: section by section, entry by entry, then the operations. -/
theorem construct_parallel :
    Parallel V (construct document) (construct document) fun _ _ => True := by
  refine .read (.entry hdocument _) fun components hcomponents => ?_
  have hsection := gives_section? (Slack.admits_orElse (x := .object []) hcomponents rfl)
  refine .read (hsection _) fun schemas hschemas => ?_
  refine .bind (.forM fun entry h => insertSchema_parallel (hschemas entry h)) fun _ _ _ => ?_
  refine .bind .note fun _ _ _ => .read (hsection _) fun parameters hparameters => ?_
  refine .bind (.forM fun entry h => insertParameter_parallel (hparameters entry h)) fun _ _ _ => ?_
  refine .read (hsection _) fun bodies hbodies => ?_
  refine .bind (.forM fun entry h => insertBody_parallel (hbodies entry h)) fun _ _ _ => ?_
  refine .read (hsection _) fun responses hresponses => ?_
  refine .bind (.forM fun entry h => insertResponse_parallel hdocument (hresponses entry h))
    fun _ _ _ => ?_
  refine .read (hsection _) fun headers hheaders => ?_
  refine .bind (.forM fun entry h => insertHeader_parallel hdocument (hheaders entry h))
    fun _ _ _ => ?_
  exact .bind (Operation.insertAll_parallel hdocument) fun _ _ _ => .model fun _ _ _ => .note

theorem build_parallel : Parallel V (build document) (build document) fun _ _ => True := by
  rw [build_eq]
  exact .bind (construct_parallel hdocument) fun _ _ _ => .finish

end

/-- How two conversions end that start alike. -/
inductive Ends (V : Slack) : Except Failure Model → Except Failure Model → Prop
  | answer (m m' : Model) : Model.Alike V m m' → Ends V (.ok m) (.ok m')
  | fail (e : Failure) : Ends V (.error e) (.error e)
  | first (e : Failure) (r : Except Failure Model) : V.firstAlone e → Ends V (.error e) r
  | second (e : Failure) (r : Except Failure Model) : V.secondAlone e → Ends V r (.error e)

/-- **Conversions of one document that start alike end alike.** -/
theorem run_parallel {document : Document} {options options' : ConversionOptions}
    {docs docs' : Option Docs.Fetcher} (hdocument : V.admits document)
    (hstart : Workbench.Alike V (start options docs) (start options' docs')) :
    Ends V (run document options docs).1 (run document options' docs').1 := by
  have houtcome := (build_parallel hdocument).runs _ _ hstart
  have hrun : ∀ options docs, (run document options docs).1 =
      (exec (build document) (start options docs)).1.map
        fun _ => (exec (build document) (start options docs)).2.model := fun _ _ => rfl
  rw [hrun, hrun]
  generalize exec (build document) (start options docs) = p at houtcome ⊢
  generalize exec (build document) (start options' docs') = q at houtcome ⊢
  cases houtcome with
  | answer _ _ w w' hw _ => exact .answer w.model w'.model hw.models
  | fail e w w' => exact .fail e
  | first e w q he => exact .first e _ he
  | second e w' p he => exact .second e _ he

/-- The empty model that a conversion starts with has no names. -/
theorem plainlyNamed_start (options : ConversionOptions) (docs : Option Docs.Fetcher) :
    (start options docs).model.PlainlyNamed :=
  ⟨by simp [start], by simp [start]⟩

/-- All names in a model that a conversion returns are plain. -/
theorem plainlyNamed_of_run {document : Document} {options : ConversionOptions}
    {docs : Option Docs.Fetcher} {m : Model} (h : (run document options docs).1 = .ok m) :
    m.PlainlyNamed := by
  -- a conversion runs in parallel to itself
  have hstart : Workbench.Alike .nothing (start options docs) (start options docs) :=
    ⟨⟨rfl, plainlyNamed_start options docs⟩, rfl⟩
  have hdocument : Slack.admits .nothing document := trivial
  have hends := run_parallel hdocument hstart
  rw [h] at hends
  cases hends with
  | answer _ _ halike => exact halike.plain

end Conversion

end TypedApi
