import TypedApi.Docs.Fetcher
import TypedApi.Graph.Finish
/-!
Building a model.

A build carries the model, the notes made on the way and the fetcher of
external documentation. A step that fails keeps what was done before it: items
that it added stay, and so do its notes.
-/

set_option autoImplicit false

namespace TypedApi

/-- A remark on how a document was lowered. -/
inductive Note where
  | renamed (name result : String)
  | ignoredExclusive
  | external (reference name : String) (scalar : Scalar)
  | lowered (schemas : Nat)
  | built (operations items : Nat)
  | cacheHit (url : String)
deriving DecidableEq, Repr

/-- A remark in words. -/
def Note.message : Note → String
  | .renamed name result =>
    "Renamed " ++ Text.shown name ++ " to " ++ Text.shown result ++ " to avoid a conflict"
  | .ignoredExclusive => "exclusiveMinimum is ignored when selecting an unsigned integer kind"
  | .external reference name scalar =>
    "External schema " ++ reference ++ " for " ++ Text.shown name ++ " lowered to " ++ scalar.text
  | .lowered schemas => "Lowered " ++ toString schemas ++ " component schemas"
  | .built operations items =>
    "Built " ++ toString operations ++ " endpoints and " ++ toString items ++ " items"
  | .cacheHit url => "Documentation cache hit for " ++ url

/-- What a build works on. -/
structure Workbench where
  model : Model := {}
  notes : List Note := []
  /-- Where external documentation comes from; without it descriptions are used. -/
  docs : Option Docs.Fetcher := none
deriving Inhabited

/-- A step of a build. -/
abbrev Build := ExceptT Failure (StateM Workbench)

namespace Build

variable {α : Type}

/-- An answer that may be a failure. -/
def lift (e : Except Failure α) : Build α :=
  match e with
  | .ok a => pure a
  | .error f => throw f

/-- Fail with a problem. -/
def problem (p : Problem) : Build α :=
  throw ⟨p, none⟩

/-- An answer that is missing because the document is malformed. -/
def require (o : Option α) : Build α :=
  lift (orMalformed o)

/-- The model as it stands. -/
def model : Build Model := do
  return (← get).model

/-- Change the model. -/
def modifyModel (f : Model → Model) : Build Unit :=
  modify fun w => { w with model := f w.model }

/-- Make a remark. -/
def note (n : Note) : Build Unit :=
  modify fun w => { w with notes := w.notes ++ [n] }

/-- Fail if the model is finished already. -/
def checkMutable (operation : String) : Build Unit := do
  if (← model).finalized then problem (.finalized operation)

/-- An optional text: null for none. -/
def optionalText (d : Document) : Build (Option String) :=
  if d.isNull then pure none else return some (← require d.asText?)

/-- A text, or null for none. -/
def textOrNull (d : Document) : Build Document := do
  match ← optionalText d with
  | some s => return .text s
  | none => return .null

/-- The value of a field of an object. -/
def field (d : Document) (key : String) : Build Document :=
  require (d.get? key)

/-! ## Names -/

/-- A safe name that no item has yet. -/
def deconflict (name : String) : Build String := do
  let result := Name.deconflict name (← model).items.keys
  if result ≠ name then note (.renamed name result)
  return result

/-! ## Items -/

/-- Add an item under a name of its own, and register it under a path if one is given. -/
def addItem (item : Item) (path : Option String := none) : Build Ref := do
  checkMutable "add item"
  let index := (← model).size
  let name ← deconflict item.generatedName
  let m ← model
  match m.items.get? name with
  | some old => problem (.nameConflict name old index)
  | none =>
    match path.bind fun p => (m.namedReferences.get? p).map fun old => (p, old) with
    | some (p, old) => problem (.duplicateName p old index)
    | none =>
      modifyModel fun m =>
        { m with
          definitions := m.definitions ++ [{ item with generatedName := name }]
          items := m.items.insert name index
          namedReferences :=
            match path with
            | some p => m.namedReferences.insert p index
            | none => m.namedReferences }
      return .back index

/-- Add a scalar under a name. -/
def addScalar (specName generatedName : String) (path : Option String) (scalar : Scalar) :
    Build Ref :=
  addItem { specName, generatedName, shape := .scalar scalar } path

/-- Change the item behind a reference. -/
def modifyItem (r : Ref) (f : Item → Item) : Build Unit := do
  let m ← model
  let index ← lift (m.indexOf r)
  match m.position? index with
  | some i => modifyModel fun m => { m with definitions := m.definitions.modify i f }
  | none => throw .malformed

/-! ## Paths -/

/-- A reference to the item of a registered path. -/
def named (path : String) : Build Ref := do
  lift ((← model).named path)

/-- A reference to the item of the path that a value spells. No path is spelled by a scalar that
is not a text, and none at all by an array or object. -/
def namedBy (path : Document) : Build Ref :=
  match path with
  | .text s => named s
  | d => if d.isKey then problem (.unknownReference d.display) else throw .malformed

/-- Register a path as a further name of an item. The same item may be registered again. -/
def registerPath (path : String) (r : Ref) : Build Unit := do
  checkMutable "register named reference"
  let register := fun index => do
    match (← model).namedReferences.get? path with
    | some old =>
      if old ≠ index then problem (.duplicateName path old index)
      else modifyModel fun m => { m with namedReferences := m.namedReferences.insert path index }
    | none => modifyModel fun m => { m with namedReferences := m.namedReferences.insert path index }
  match r with
  | .forward _ => problem (.unknownReference r.text)
  | .back index => register index
  | .resolved index => register index

/-! ## Documentation and the end -/

/-- The text at an address on behalf of a schema or operation. -/
def fetchDocs (fetcher : Docs.Fetcher) (url : String) (name : Option String) : Build String := do
  let (fetched, fetcher) := fetcher.fetch url name
  modify fun w => { w with docs := some fetcher }
  if fetched.hit then note (.cacheHit url)
  lift fetched.result

/-- Finish the model. -/
def finish : Build Unit := do
  let (m, failure) := (← model).finish
  modifyModel fun _ => m
  match failure with
  | some e => throw e
  | none => return ()

end Build

end TypedApi
