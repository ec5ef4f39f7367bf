import TypedApi.Command.Convert
/-!
Generating the bindings of a document, and listing what they come from.
-/

set_option autoImplicit false

namespace TypedApi.Command

open Interaction (lift)

/-- Warn of an operation without an identifier, whose method has a made-up name. -/
def warnUnnamed (o : Operation) : Interaction Unit := do
  if o.operationId.isNone then
    Console.warning (o.label ++ " has no operationId; its method is named " ++ o.functionName ++ "()")

/-- Write the bindings for a model. -/
def writeBindings (m : Model) (emitDocs : Bool) : Interaction Unit := do
  let bindings ← lift (Bindings.ofModel m emitDocs)
  Console.debug ("Rendering " ++ toString bindings.definitions.length ++ " definitions and " ++
    toString bindings.methods.length ++ " operations")
  Console.printData bindings.text

/-- Generate the bindings of a document. The parsed document and the model may be asked for, and
then take the place of the source unless that is asked for too. -/
def generate (source : String) (debugSpec debugModel emitSource : Bool)
    (overrides : Settings.Overrides) : Interaction Unit := do
  let settings ← settingsWith overrides
  let document ← loadChecked source
  if debugSpec then Console.printDocument document
  let model ← convert document settings
  model.operations.forM warnUnnamed
  if debugModel then Console.printDocument (← lift (orMalformed model.plain?))
  if emitSource || !(debugSpec || debugModel) then
    writeBindings model settings.options.emitDocs
  Console.success ("Generated " ++ toString model.definitions.length ++ " items and " ++
    toString model.operations.length ++ " operations.")

/-- Load and convert a document under the settings in effect. -/
def loadModel (source : String) (overrides : Settings.Overrides) : Interaction Model := do
  let settings ← settingsWith overrides
  convert (← loadChecked source) settings

/-- Whether something is so, in a table. -/
def yesNo (b : Bool) : String :=
  if b then "yes" else "no"

/-- A row of texts. -/
def row (cells : List String) : Document :=
  .array (cells.map .text)

/-- The headers of the table of items. -/
def itemHeaders : List String :=
  ["Name", "Kind", "Public", "Nullable", "Spec Name"]

/-- The row of an item. -/
def itemRow (item : Item) : List String :=
  [item.generatedName, item.shape.kindName, yesNo item.isPublic, yesNo item.nullable, item.specName]

/-- List the items of a document. -/
def listItems (source : String) (overrides : Settings.Overrides) : Interaction Unit := do
  let model ← loadModel source overrides
  Console.printTable (row itemHeaders) (.array (model.definitions.map fun i => row (itemRow i)))

/-- The headers of the table of operations. -/
def operationHeaders : List String :=
  ["Function", "Method", "Path", "Parameters", "Body", "Response"]

/-- The row of an operation. -/
def operationRow (m : Model) (o : Operation) : Except Failure (List String) := do
  let body ←
    match o.requestBody with
    | some r => m.nameOf r
    | none => .ok ""
  return [o.functionName, o.verb.text, o.path, ", ".intercalate (o.parameters.map (·.specName)), body,
    ← m.nameOf o.response]

/-- List the operations of a document. -/
def listOperations (source : String) (overrides : Settings.Overrides) : Interaction Unit := do
  let model ← loadModel source overrides
  let rows ← lift (model.operations.mapM (operationRow model))
  Console.printTable (row operationHeaders) (.array (rows.map row))

end TypedApi.Command
