import TypedApi.Settings.Basic
import TypedApi.Text.Lower
/-!
Layers of settings.

A project file lies over the stored settings field by field. Variables of the
environment lie over both, and flags of the command line over all; these two
change only what they name, so each is a set of `Overrides`.
-/

set_option autoImplicit false

namespace TypedApi

namespace Document

mutual
/-- An object with the fields of another laid over it. Where both hold an object these are laid
over each other; any other value replaces the one below. -/
def overlay (base : List (Document × Document)) :
    List (Document × Document) → List (Document × Document)
  | [] => base
  | (key, value) :: rest => overlay (putField base key (overlayValue base key value)) rest

/-- The value that a field has after a value is laid over it. -/
def overlayValue (base : List (Document × Document)) (key : Document) : Document → Document
  | .object above =>
    match base.find? fun p => p.1.same key with
    | some (_, .object below) => .object (overlay below above)
    | _ => .object above
  | value => value
end

/-- A document with another laid over it. -/
def layer (below above : Document) : Document :=
  match below, above with
  | .object base, .object fields => .object (overlay base fields)
  | _, above => above

end Document

namespace Settings

/-- Settings that are given by themselves. -/
structure Overrides where
  boundedIntegers : Option Bool := none
  fetchExternalDocs : Option Bool := none
  emitDocs : Option Bool := none
  format : Option String := none
deriving DecidableEq, Repr, Inhabited

/-- Settings with what is given in place of what was there. -/
def override (s : Settings) (o : Overrides) : Settings :=
  { s with
    options := {
      boundedIntegers := o.boundedIntegers.getD s.options.boundedIntegers
      emitDocs := o.emitDocs.getD s.options.emitDocs
      fetchExternalDocs := o.fetchExternalDocs.getD s.options.fetchExternalDocs }
    format := o.format.getD s.format }

/-- The words for true in a variable. -/
def trueFlags : List String :=
  ["1", "true", "yes", "on"]

/-- The words for false in a variable. -/
def falseFlags : List String :=
  ["0", "false", "no", "off"]

/-- The Boolean that the value of a variable spells, in any letter case and with blank characters
around it; nothing if it is blank. -/
def flagOf (name value : String) : Except Failure (Option Bool) :=
  let word := Text.lower (Text.strip value)
  if word = "" then .ok none
  else if trueFlags.contains word then .ok (some true)
  else if falseFlags.contains word then .ok (some false)
  else fail (.settings (.invalidFlag name word))

/-- What the variables of an environment give. -/
def environmentOverrides (env : String → String) : Except Failure Overrides := do
  let flag := fun name => flagOf name (env name)
  return {
    boundedIntegers := ← flag "APIMODEL_BOUNDED_INTEGERS"
    fetchExternalDocs := ← flag "APIMODEL_FETCH_DOCS"
    emitDocs := ← flag "APIMODEL_EMIT_DOCS" }

end Settings

end TypedApi
