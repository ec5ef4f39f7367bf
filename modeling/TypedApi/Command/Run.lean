import TypedApi.Command.Config
import TypedApi.Command.Generate
import TypedApi.Command.Task
/-!
Running a command line.

The console is set up before the task is read, so settings that cannot be used
are reported even for a line that is no good after the name of its command. A
failure of a known family is reported with its cause and a suggestion and ends
with the exit code of the family; any other leaves a log.
-/

set_option autoImplicit false

namespace TypedApi

/-- What to do about a failure of a family, given whether the console is verbose. -/
def ProblemKind.suggestion? (kind : ProblemKind) (verbose : Bool) : Option String :=
  match kind with
  | .source => some "Check that the source is an OpenAPI 3.0 or 3.1 document."
  | .unknownReference | .duplicateName | .shape | .schema | .finalized | .operation
  | .unknownVerb | .unsupportedLocation | .malformedContent =>
    if verbose then none else some "Re-run with --verbose to trace how the document was lowered."
  | .settings | .rendering | .invariant | .malformed | .unusablePath | .unusableAddress => none

namespace Command

open Interaction (lift exit workspace change)

/-- Answer a line that asks for no work. -/
def answer {α : Type} (r : Reply) : Interaction α := do
  modify fun s => { s with output := s.output ++ r.output, errors := s.errors ++ r.errors }
  exit r.exitCode

/-- What a line asks for, unless that is no work. -/
def orAnswer {α : Type} : Except Reply α → Interaction α
  | .ok a => pure a
  | .error r => answer r

/-- Set up the console. -/
def setUpConsole (choice : ConsoleChoice) : Interaction Unit := do
  let style ←
    match choice.style with
    | some style => pure style
    | none =>
      let settings ← settingsWith {}
      match Console.Style.ofSetting? settings.format with
      | some style => pure style
      | none =>
        Console.error ("Config error: " ++ Text.shown settings.format ++ " is not a valid OutputFormat")
        exit 1
  modify fun s => { s with console := {
    style, quiet := choice.quiet, verbose := choice.verbose, target := choice.target } }

/-- Set up the console, reporting settings that cannot be used. -/
def prepare (choice : ConsoleChoice) : Interaction Unit :=
  tryCatch (setUpConsole choice) fun stop => do
    match stop with
    | .failure ⟨.settings p, _⟩ =>
      Console.error ("Config error: " ++ p.message)
      exit 1
    | stop => throw stop

/-- Do a task. -/
def perform : Task → Interaction Unit
  | .generate source debugSpec debugModel emitSource overrides =>
    generate source debugSpec debugModel emitSource overrides
  | .items source overrides => listItems source overrides
  | .operations source overrides => listOperations source overrides
  | .configShow => showSettings
  | .configSet key value => changeSetting key value
  | .configReset force => resetSettings force

/-- Report a failure of a known family, and end with its exit code. -/
def report (f : Failure) (code : Nat) : Interaction Unit := do
  Console.error f.problem.message
  match f.cause with
  | some c => Console.error ("Caused by: " ++ c.message)
  | none => pure ()
  match f.problem.kind.suggestion? (← get).console.verbose with
  | some s => Console.suggest s
  | none => pure ()
  exit code

/-- Leave a log of a failure that is of no family. -/
def logCrash (f : Failure) : Interaction Unit := do
  let folder := (← useDirectory .data).child "logs"
  change fun w => w.makeFolder folder
  let path := folder.child ("crash-" ++ (← workspace).timestamp ++ ".log")
  change fun w => w.writeFile path (.text (f.problem.message ++ "\n"))
  Console.error ("Unexpected error. Debug log: " ++ path.text)
  exit 1

/-- Deal with what stopped a line. -/
def finish : Stop → Interaction Unit
  | .exit code => exit code
  | .failure f =>
    match f.problem.kind.exitCode? with
    | some code => report f code
    | none => logCrash f

/-- Read a line and do what it asks for. -/
def interpret (args : List String) : Interaction Unit := do
  let line ← orAnswer (Topic.program.read args)
  let (topic, rest) ← orAnswer (Topic.program.command line)
  prepare (consoleChoice line)
  perform (← orAnswer (readTask topic rest))

/-- The exit code that an action ends with. -/
def codeOf : Except Stop Unit → Nat
  | .ok _ => 0
  | .error (.exit code) => code
  | .error (.failure _) => 1

/-- Run a line in a workspace: the exit code, and the session afterwards. -/
def run (args : List String) (w : Workspace) : Nat × Session :=
  let (result, session) := (tryCatch (interpret args) finish).run.run { workspace := w }
  (codeOf result, session)

end Command

end TypedApi
