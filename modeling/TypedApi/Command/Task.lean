import TypedApi.Command.Arguments
import TypedApi.Console.Basic
import TypedApi.Settings.Layer
/-!
What a command line asks for.

The program has commands, and one of them has commands of its own. Each level
reads its own switches and leaves the rest to the next. A line may also ask for
help or the version, or be one that cannot be read; these are its `Reply`s,
which need no work to be done.
-/

set_option autoImplicit false

namespace TypedApi.Command

/-- The program, its commands and theirs. -/
inductive Topic where
  | program
  | generate
  | items
  | operations
  | config
  | configShow
  | configSet
  | configReset
deriving DecidableEq, Repr

/-- An answer to a line that asks for no work. -/
inductive Reply where
  | version
  | help (topic : Topic)
  | noArguments (topic : Topic)
  | usage (topic : Topic)
deriving DecidableEq, Repr

/-- What a line asks to be done. -/
inductive Task where
  | generate (source : String) (debugSpec debugModel emitSource : Bool)
      (overrides : Settings.Overrides)
  | items (source : String) (overrides : Settings.Overrides)
  | operations (source : String) (overrides : Settings.Overrides)
  | configShow
  | configSet (key value : String)
  | configReset (force : Bool)
deriving DecidableEq, Repr

namespace Topic

/-- How a line for a topic is written. -/
def synopsis : Topic → String
  | .program => "apimodel [OPTIONS] COMMAND [ARGS]..."
  | .generate => "apimodel generate [OPTIONS] PATH"
  | .items => "apimodel items [OPTIONS] PATH"
  | .operations => "apimodel operations [OPTIONS] PATH"
  | .config => "apimodel config [OPTIONS] COMMAND [ARGS]..."
  | .configShow => "apimodel config show [OPTIONS]"
  | .configSet => "apimodel config set [OPTIONS] KEY VALUE"
  | .configReset => "apimodel config reset [OPTIONS]"

/-- What a topic is for. -/
def summary : Topic → String
  | .program => "Compile OpenAPI 3.0/3.1 documents into typed models."
  | .generate => "Generate typed models for an OpenAPI document."
  | .items => "List every item of the converted document."
  | .operations => "List every operation of the converted document."
  | .config => "Configuration management."
  | .configShow => "Show current configuration."
  | .configSet => "Set a configuration value."
  | .configReset => "Reset configuration to defaults."

/-- The switches of a topic besides the one for help. -/
def ownSwitches : Topic → List Switch
  | .program => [
      { long := "--version" }, { long := "--json" }, { long := "--plain" }, { long := "--no-color" },
      { long := "--quiet", letter := some 'q' }, { long := "--verbose", letter := some 'v' },
      { long := "--output", letter := some 'o', takesValue := true }]
  | .generate => [
      { long := "--debug-spec" }, { long := "--debug-model" }, { long := "--emit-source" },
      { long := "--no-emit-docs" }, { long := "--bounded-integers" },
      { long := "--no-bounded-integers" }, { long := "--fetch-docs" }, { long := "--no-fetch-docs" }]
  | .items | .operations => [{ long := "--fetch-docs" }, { long := "--no-fetch-docs" }]
  | .configReset => [{ long := "--force", letter := some 'f' }]
  | .config | .configShow | .configSet => []

/-- The switches of a topic. -/
def switches (t : Topic) : List Switch :=
  { long := "--help" } :: t.ownSwitches

/-- The commands of a topic, by name. -/
def commands : Topic → List (String × Topic)
  | .program =>
    [("generate", .generate), ("items", .items), ("operations", .operations), ("config", .config)]
  | .config => [("show", .configShow), ("set", .configSet), ("reset", .configReset)]
  | _ => []

/-- Whether a topic has commands. Its switches come before their names. -/
def isGroup (t : Topic) : Bool :=
  !t.commands.isEmpty

/-- The line that starts every help text. -/
def usageLine (t : Topic) : String :=
  "Usage: " ++ t.synopsis ++ "\n"

/-- The help text of a topic. -/
def helpText (t : Topic) : String :=
  let lines := fun (heading : String) (names : List String) =>
    if names.isEmpty then "" else "\n" ++ heading ++ ":\n" ++ String.join (names.map ("  " ++ · ++ "\n"))
  t.usageLine ++ "\n" ++ t.summary ++ "\n" ++ lines "Options" (t.switches.map (·.long)) ++
    lines "Commands" (t.commands.map (·.1))

/-- Read the arguments of a topic. A group needs some; help and version are answered at once. -/
def read (t : Topic) (args : List String) : Except Reply Arguments :=
  if t.isGroup && args.isEmpty then .error (.noArguments t)
  else
    match readArguments t.switches (!t.isGroup) args with
    | none => .error (.usage t)
    | some a =>
      match a.first? ["--help", "--version"] with
      | some "--version" => .error .version
      | some _ => .error (.help t)
      | none => .ok a

/-- The command that the positional arguments of a group name, and what is left for it. -/
def command (t : Topic) (a : Arguments) : Except Reply (Topic × List String) :=
  match a.positional with
  | [] => .error (.usage t)
  | name :: rest =>
    match t.commands.find? fun c => c.1 = name with
    | some c => .ok (c.2, rest)
    | none => .error (.usage t)

end Topic

/-- The version of the program. -/
def version : String := "0.1.0"

/-- What the program's own switches say about the console. The form is missing if it is to be taken
from the settings. -/
structure ConsoleChoice where
  style : Option Console.Style
  quiet : Bool
  verbose : Bool
  target : Option String
deriving DecidableEq, Repr

/-- The console that the program's switches ask for. -/
def consoleChoice (a : Arguments) : ConsoleChoice :=
  { style :=
      if a.has "--json" then some .json else if a.has "--plain" then some .plain else none
    quiet := a.has "--quiet"
    verbose := a.has "--verbose"
    target := (a.value? "--output").filter (· ≠ "") }

/-- The settings that the switches of a command give. -/
def overridesOf (a : Arguments) : Settings.Overrides :=
  { boundedIntegers := a.choice? "--bounded-integers" "--no-bounded-integers"
    fetchExternalDocs := a.choice? "--fetch-docs" "--no-fetch-docs"
    emitDocs := if a.has "--no-emit-docs" then some false else none }

/-- The task of a command that has no commands of its own. -/
def taskOf (t : Topic) (a : Arguments) : Except Reply Task :=
  match t, a.positional with
  | .generate, [source] =>
    .ok (.generate source (a.has "--debug-spec") (a.has "--debug-model") (a.has "--emit-source")
      (overridesOf a))
  | .items, [source] => .ok (.items source (overridesOf a))
  | .operations, [source] => .ok (.operations source (overridesOf a))
  | .configShow, [] => .ok .configShow
  | .configSet, [key, value] => .ok (.configSet key value)
  | .configReset, [] => .ok (.configReset (a.has "--force"))
  | t, _ => .error (.usage t)

/-- Read the arguments of a command. -/
def readTask (t : Topic) (args : List String) : Except Reply Task := do
  let a ← t.read args
  if t.isGroup then
    let (inner, rest) ← t.command a
    taskOf inner (← inner.read rest)
  else taskOf t a

namespace Reply

/-- The exit code of a reply. -/
def exitCode : Reply → Nat
  | .version | .help _ => 0
  | .noArguments _ | .usage _ => 2

/-- What a reply writes to the standard output. -/
def output : Reply → String
  | .version => "apimodel " ++ Command.version ++ "\n"
  | .help t | .noArguments t => t.helpText
  | .usage _ => ""

/-- What a reply writes to the standard error. -/
def errors : Reply → String
  | .usage t => t.usageLine ++ "Try '--help' for help.\n"
  | _ => ""

end Reply

end TypedApi.Command
