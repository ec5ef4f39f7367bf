import TypedApi.Command.Convert
import TypedApi.Settings.Edit
import TypedApi.Text.Lower
/-!
Showing, changing and resetting the stored settings.
-/

set_option autoImplicit false

namespace TypedApi.Command

open Interaction (lift workspace change exit)

/-- The stored settings. -/
def storedSettings : Interaction Settings := do
  let _ ← useDirectory .config
  lift (Settings.stored (← workspace))

/-- Show the stored settings, and where they are. -/
def showSettings : Interaction Unit := do
  let settings ← storedSettings
  Console.info ("Config directory: " ++ (Directory.config.path (← workspace)).text)
  Console.printDocument settings.dump

/-- Change a stored setting. Nothing is stored unless the key and the value are good. -/
def changeSetting (key value : String) : Interaction Unit := do
  match (← storedSettings).edit key value with
  | .error problem =>
    Console.error problem.message
    exit EditProblem.exitCode
  | .ok edited =>
    change edited.settings.save
    Console.success ("Set " ++ key ++ " = " ++ edited.shown)

/-- Ask a question until a line answers it; an empty line says no. Without a further line the
command is given up. -/
def confirm (question : String) : List String → Interaction Bool
  | [] => do
    Console.put (question ++ " [y/N]: ")
    Console.remark "Aborted."
    exit 1
  | line :: rest => do
    Console.put (question ++ " [y/N]: ")
    match Text.lower (Text.strip line) with
    | "y" | "yes" => return true
    | "n" | "no" | "" => return false
    | _ =>
      Console.put "Error: invalid input\n"
      confirm question rest

/-- The lines of an input. An end of line at the very end begins no further line. -/
def inputLines (input : String) : List String :=
  let pieces := (Text.splitAt '\n' (Text.unifyNewlines input.toList)).map String.ofList
  if pieces.getLast? = some "" then pieces.dropLast else pieces

/-- Reset the stored settings, after asking unless that is forced. -/
def resetSettings (force : Bool) : Interaction Unit := do
  if !force then
    let confirmed ← confirm "Reset all config to defaults?" (inputLines (← workspace).input)
    if !confirmed then
      Console.info "Cancelled."
      exit 0
  change ({} : Settings).save
  Console.success "Configuration reset to defaults."

end TypedApi.Command
