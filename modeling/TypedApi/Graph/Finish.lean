import TypedApi.Graph.Model
/-!
Finishing a model.

Every reference becomes a resolved one, and then every variant of every union
gets its display name. Nothing is changed unless every reference has an item
to go to.
-/

set_option autoImplicit false

namespace TypedApi

namespace Model

/-- The resolved form of a reference. -/
def resolved (m : Model) (r : Ref) : Except Failure Ref :=
  match m.indexOf r with
  | .ok index => .ok (.resolved index)
  | .error e => .error e

/-- The model with every reference resolved. -/
def resolveAll (m : Model) : Except Failure Model := do
  let definitions ← m.definitions.mapM (Item.mapRefs m.resolved)
  let operations ← m.operations.mapM (Operation.mapRefs m.resolved)
  let responseVariants ← m.responseVariants.mapM fun p => do
    return (p.1, ← Shape.mapVariants m.resolved p.2)
  return { m with definitions, operations, responseVariants, acceptHeader := none, finalized := true }

/-- Name variants from a position on, up to the first that cannot be named. -/
def nameVariants (nameOf : Ref → Except Failure (Option String)) (index : Nat) :
    List Variant → List Variant × Option Failure
  | [] => ([], none)
  | v :: rest =>
    match v.assignName index nameOf with
    | .error e => (v :: rest, some e)
    | .ok v' =>
      let (named, failure) := nameVariants nameOf (index + 1) rest
      (v' :: named, failure)

/-- Name the variants of an item that is a union. -/
def nameItem (nameOf : Ref → Except Failure (Option String)) (item : Item) :
    Item × Option Failure :=
  match item.shape with
  | .oneOf discriminant variants =>
    let (named, failure) := nameVariants nameOf 0 variants
    ({ item with shape := .oneOf discriminant named }, failure)
  | _ => (item, none)

/-- Apply a step to a list up to the first failure. -/
def eachUntil {α : Type} (step : α → α × Option Failure) : List α → List α × Option Failure
  | [] => ([], none)
  | a :: rest =>
    match step a with
    | (a', some e) => (a' :: rest, some e)
    | (a', none) =>
      let (rest', failure) := eachUntil step rest
      (a' :: rest', failure)

/-- Name all variants: those of the items, then those of the shared responses. -/
def nameAll (m : Model) : Model × Option Failure :=
  let nameOf := fun r => (m.nameOf r).map some
  match eachUntil (nameItem nameOf) m.definitions with
  | (definitions, some e) => ({ m with definitions }, some e)
  | (definitions, none) =>
    let step := fun (p : String × List Variant) =>
      let (named, failure) := nameVariants nameOf 0 p.2
      ((p.1, named), failure)
    let (responseVariants, failure) := eachUntil step m.responseVariants
    ({ m with definitions, responseVariants }, failure)

/-- Finish a model: the model afterwards, and the failure if there was one. -/
def finish (m : Model) : Model × Option Failure :=
  if m.finalized then (m, some ⟨.finalized "finalize", none⟩)
  else
    match m.resolveAll with
    | .error e => (m, some e)
    | .ok resolved => resolved.nameAll

end Model

end TypedApi
