import TypedApi.Document.Json.Writer
import TypedApi.Dump
import TypedApi.Workspace.Basic
/-!
The console: data on the standard output, remarks on the standard error.

Data is what a caller may want to process, so nothing else goes to the
standard output, and a target file may take its place. Remarks are for people:
a quiet console leaves out those that need no attention, and only a verbose
one has the traces.

An action on the console works on a session, which holds the workspace and what
was written so far. It may stop, with an exit code or for a failure.
-/

set_option autoImplicit false

namespace TypedApi

namespace Console

/-- The forms in which data is written. -/
inductive Style where
  | json
  | plain
  | rich
deriving DecidableEq, Repr, Inhabited

namespace Style

/-- The name of a form. -/
def name : Style → String
  | .json => "json"
  | .plain => "plain"
  | .rich => "rich"

/-- The form that a setting names. The automatic one is plain, for the standard output is never
taken for a terminal. -/
def ofSetting? (setting : String) : Option Style :=
  match setting with
  | "auto" => some .plain
  | "json" => some .json
  | "plain" => some .plain
  | "rich" => some .rich
  | _ => none

end Style

end Console

/-- How a console writes. -/
structure Console where
  style : Console.Style := .plain
  quiet : Bool := false
  verbose : Bool := false
  /-- The file that takes the data. -/
  target : Option String := none
deriving DecidableEq, Repr, Inhabited

/-- A workspace with a console, and what was written to its two outputs. -/
structure Session where
  workspace : Workspace := {}
  console : Console := {}
  output : String := ""
  errors : String := ""
deriving Inhabited

/-- Why an action goes no further. -/
inductive Stop where
  | exit (code : Nat)
  | failure (f : Failure)

/-- An action in a session. -/
abbrev Interaction := ExceptT Stop (StateM Session)

namespace Interaction

variable {α : Type}

/-- An answer that may be a failure. -/
def lift (e : Except Failure α) : Interaction α :=
  match e with
  | .ok a => pure a
  | .error f => throw (.failure f)

/-- End with an exit code. -/
def exit (code : Nat) : Interaction α :=
  throw (.exit code)

/-- Read the workspace. -/
def workspace : Interaction Workspace := do
  return (← get).workspace

/-- Change the workspace by a step that may fail. -/
def change (step : Workspace → Except Failure Workspace) : Interaction Unit := do
  let w ← lift (step (← workspace))
  modify fun s => { s with workspace := w }

end Interaction

namespace Console

open Interaction (lift workspace change)

/-! ## Data -/

/-- Write to the standard output. -/
def put (text : String) : Interaction Unit :=
  modify fun s => { s with output := s.output ++ text }

/-- A text that ends its last line. -/
def endLine (text : String) : String :=
  if text.toList.getLast? = some '\n' then text else text ++ "\n"

/-- Write a text at the end of a file. A path with a slash at its end names a folder. -/
def appendTo (path text : String) : Interaction Unit :=
  change fun w =>
    if path.toList.getLast? = some '/' then fail (.unusablePath path)
    else w.appendFile (.ofText path) text

/-- Write a text as data. A target file gets it with its last line ended, and the standard output
with one more line end. -/
def printData (text : String) : Interaction Unit := do
  match (← get).console.target with
  | some path => appendTo path (endLine text)
  | none => put (text ++ "\n")

/-- Write a value as data, as it stands in a sentence. A target file takes texts only. -/
def printValue (d : Document) : Interaction Unit := do
  if (← get).console.target.isSome then printData (← lift (orMalformed d.text?))
  else printData d.display

/-- Write a document as data. -/
def printDocument (d : Document) : Interaction Unit := do
  printData (← lift (orMalformed (Document.Json.write? d)))

/-- The record that a row of a table is, as far as there are both headers and cells. -/
def rowRecord? (headers row : Document) : Option Document := do
  let fields := (← headers.elements?).zip (← row.elements?)
  if fields.all fun p => p.1.isKey then some (.ofFields fields) else none

/-- The line that a row of a table is; its cells must be texts. -/
def rowLine? (row : Document) : Option String := do
  return "\t".intercalate (← (← row.elements?).mapM Document.text?)

/-- Write a table as data: a record for each row, or lines of cells with tabs between them. -/
def printTable (headers rows : Document) : Interaction Unit := do
  let rows ← lift (orMalformed rows.elements?)
  if (← get).console.style = .json then
    printDocument (.array (← lift (orMalformed (rows.mapM (rowRecord? headers)))))
  else
    (headers :: rows).forM fun row => do printData (← lift (orMalformed (rowLine? row)))

/-! ## Remarks -/

/-- Write a line to the standard error. -/
def remark (line : String) : Interaction Unit :=
  modify fun s => { s with errors := s.errors ++ line ++ "\n" }

/-- Write a line to the standard error unless the console is quiet. -/
def info (message : String) : Interaction Unit := do
  if !(← get).console.quiet then remark message

/-- Say that something was done. -/
def success (message : String) : Interaction Unit :=
  info message

/-- Suggest what to do next. -/
def suggest (message : String) : Interaction Unit :=
  info ("→ " ++ message)

/-- Warn. -/
def warning (message : String) : Interaction Unit :=
  remark ("Warning: " ++ message)

/-- Report an error. -/
def error (message : String) : Interaction Unit :=
  remark ("Error: " ++ message)

/-- Trace a step. -/
def debug (message : String) : Interaction Unit := do
  if (← get).console.verbose then remark ("[debug] " ++ message)

end Console

end TypedApi
