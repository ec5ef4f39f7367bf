import TypedApi.Proofs.Conversion.Calls
import TypedApi.Proofs.Operation.Sealed
/-!
Calls on a finished model.

A finished model is meant to be read only. Whatever is called on it adds no
item, registers no path, adds no operation and shares no variants, also where
the call answers. The one thing that still changes is the mark of a header: a
parameter or header that is required and whose schema refers to a registered
path takes over the item of that path and marks it, and nothing refuses that
as long as no path is to be registered. All calls that cannot take over an item
in this way leave the model exactly as it is.
-/

set_option autoImplicit false

namespace TypedApi

open Build

namespace Call

/-! ## Kinds of calls -/

/-- A call that may take over the item of a registered path for a header without registering a path
itself. -/
def marks : Call → Bool
  | .insertParameter none _ => true
  | .convertParameter .. => true
  | .createHeader _ none _ => true
  | .convertHeader .. => true
  | .insertComponentHeader .. => true
  | .createVariants .. => true
  | .createResponses .. => true
  | .createOperation .. => true
  | .insertOperations _ => true
  | _ => false

/-- A call by which a conversion writes to its own model directly: it publishes an item, keeps the
variants of a response, appends an operation, or does all of it for a whole document. -/
def writes : Call → Bool
  | .publish _ => true
  | .share .. => true
  | .insertResponse .. => true
  | .appendOperation _ => true
  | .construct _ => true
  | _ => false

/-! ## Calls and finished models -/

theorem sealed_effect {α : Type} {marks : Bool} {x : Build α} (hx : Sealed marks x) :
    Sealed marks (effect x) :=
  hx.bind fun _ => .pure _

/-- Finishing a finished model is refused. -/
theorem sealed_finish {marks : Bool} : Sealed marks Build.finish := by
  refine ⟨fun w hw => ?_⟩
  rw [exec_finish, Model.finish, if_pos hw]
  exact .refl _

theorem insertSchema_refused (entry : Document × Document) :
    Refused false (Conversion.insertSchema entry) := by
  refine .bind (.skip (.require _) fun specName => .ite (Operation.addInline_refused ..) ?_)
  refine .skip (.require _) fun target => .ite (.skip (.note _) fun _ => .addScalar ..) ?_
  refine .after (Sealed.of_grows (Schema.convert_grows ..)) fun inner => ?_
  exact .skip (.textOrNull _) fun _ => .addItem _ _

theorem insertBody_refused (entry : Document × Document) :
    Refused false (Conversion.insertBody entry) := by
  obtain ⟨key, body⟩ := entry
  refine .skip (.require _) fun _ => ?_
  split
  · exact .after (.namedBy _) fun _ => .registerPath _ _
  · exact .skip (.require _) fun _ => .bind (Operation.createBody_refused ..)

/-- What a call may do to a finished model, by its kind. -/
theorem run_sealed (call : Call) (h : call.writes = false) : Sealed call.marks call.run := by
  cases call with
  | addItem => exact sealed_effect (Refused.addItem ..).sealed
  | addScalar => exact sealed_effect (Refused.addScalar ..).sealed
  | addInline => exact sealed_effect (Operation.addInline_refused ..).sealed
  | convert => exact sealed_effect (Operation.convert_sealed ..)
  | lower => exact sealed_effect (Sealed.of_grows (Schema.lower_grows ..))
  | deconflict name => exact sealed_effect (.still (.deconflict name))
  | registerPath path r => exact (Refused.registerPath path r).sealed
  | insertParameter path =>
    cases path with
    | none => exact sealed_effect (Operation.insertParameter_sealed _)
    | some path => exact sealed_effect (Operation.insertParameter_refused path _).sealed
  | insertComponentParameter =>
    exact sealed_effect (Operation.insertComponentParameter_refused ..).sealed
  | convertParameter => exact sealed_effect (Operation.convertParameter_sealed ..)
  | makeParameter => exact sealed_effect (.still (Operation.still_makeParameter ..))
  | createHeader specName path =>
    cases path with
    | none => exact sealed_effect (Operation.createHeader_sealed ..)
    | some path => exact sealed_effect (Operation.createHeader_refused _ path _).sealed
  | convertHeader => exact sealed_effect (Operation.convertHeader_sealed ..)
  | insertComponentHeader => exact sealed_effect (Operation.insertComponentHeader_sealed ..)
  | createBody => exact sealed_effect (Operation.createBody_refused ..).sealed
  | referredBody => exact sealed_effect (Operation.referredBody_sealed _)
  | insertBody entry => exact (insertBody_refused entry).sealed
  | createVariants => exact sealed_effect (Operation.createVariants_sealed ..)
  | createResponses => exact sealed_effect (Operation.createResponses_refused ..).sealed
  | insertSchema entry => exact (insertSchema_refused entry).sealed
  | acceptParameter => exact sealed_effect Operation.acceptParameter_sealed
  | createOperation => exact sealed_effect (Operation.create_refused ..).sealed
  | insertOperations document => exact Operation.insertAll_sealed document
  | finish => exact sealed_finish
  | publish | share | insertResponse | appendOperation | construct => cases h

/-- **A call on a finished model leaves it as it is, up to marks of headers**, whether it answers or
fails: the items are the same in the same order but that some may have been marked as headers, and
everything else is the same. A call that cannot take over an item for a header sets no marks, so
after it the model is the very same. -/
theorem marked_of_finalized (call : Call) (h : call.writes = false) (w : Workbench)
    (hfinal : w.model.finalized = true) :
    Model.Marked call.marks w.model (exec call.run w).2.model ∧
      (call.marks = false → (exec call.run w).2.model = w.model) := by
  have hmarked := (run_sealed call h).runs w hfinal
  refine ⟨hmarked, fun hmarks => ?_⟩
  rw [hmarks] at hmarked
  exact hmarked.eq_of_no_marks

/-! ## A header that takes over an item -/

/-- A finished model with one text, registered under the path of a shared schema. -/
def finishedText : Workbench :=
  after [.addScalar "A" "A" (some "#/components/schemas/A") .string, .finish] {}

/-- A required header whose schema is that text. -/
def requiredHeader : Document :=
  .object [(.text "required", .bool true),
    (.text "schema", .object [(.text "$ref", .text "#/components/schemas/A")])]

/-- The header of a finished model is no new item, and nothing but a mark has changed; adding an
item is refused and changes nothing at all. -/
theorem marked_finishedText :
    Model.Marked true finishedText.model
        (exec (createHeader (.text "X-A") none requiredHeader).run finishedText).2.model ∧
      (exec (addItem {} none).run finishedText).2.model = finishedText.model :=
  ⟨(marked_of_finalized (.createHeader (.text "X-A") none requiredHeader) rfl finishedText
      (by decide +kernel)).1,
    (marked_of_finalized (.addItem {} none) rfl finishedText (by decide +kernel)).2 rfl⟩

/-- The model is finished, the call answers, and an item that was no header before is one after. -/
theorem finishedText_changes :
    finishedText.model.finalized = true ∧
      (exec (createHeader (.text "X-A") none requiredHeader).run finishedText).1 = .ok () ∧
      finishedText.model.definitions.map Item.implHeader = [false] ∧
      (exec (createHeader (.text "X-A") none requiredHeader).run finishedText).2.model.definitions.map
        Item.implHeader = [true] := by
  refine ⟨by decide +kernel, ?_, by decide +kernel, by decide +kernel⟩
  rfl

end Call

end TypedApi
