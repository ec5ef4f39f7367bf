import TypedApi.Settings.Basic
import TypedApi.Text.Lower
/-!
Changing one setting by its key.

A key is the path of a setting through the sections, with dots between the
names. The value is a text and is read by the type of the setting: a word for
true turns a flag on and any other text turns it off, a count takes an
integer, and a text is taken as it is.
-/

set_option autoImplicit false

namespace TypedApi

/-- The single settings. -/
inductive Setting where
  | boundedIntegers
  | emitDocs
  | fetchExternalDocs
  | cacheEnabled
  | cacheTtl
  | format
deriving DecidableEq, Repr

namespace Setting

/-- All settings. -/
def all : List Setting :=
  [.boundedIntegers, .emitDocs, .fetchExternalDocs, .cacheEnabled, .cacheTtl, .format]

/-- The path of a setting through the sections. -/
def path : Setting → List String
  | .boundedIntegers => ["generator", "bounded_integers"]
  | .emitDocs => ["generator", "emit_docs"]
  | .fetchExternalDocs => ["generator", "fetch_external_docs"]
  | .cacheEnabled => ["generator", "docs_cache", "enabled"]
  | .cacheTtl => ["generator", "docs_cache", "ttl_seconds"]
  | .format => ["output", "format"]

/-- The setting at a path. -/
def ofPath? (p : List String) : Option Setting :=
  all.find? fun s => s.path = p

/-- Whether a path leads to a section: it is a proper beginning of a setting's path. -/
def isSection (p : List String) : Bool :=
  all.any fun s => p.isPrefixOf s.path && p.length < s.path.length

/-- The names that a key is made of. -/
def namesOf (key : String) : List String :=
  (Text.splitAt '.' key.toList).map String.ofList

end Setting

/-- Why a setting cannot be changed. -/
inductive EditProblem where
  | invalidKey (key : String)
  | unknownKey (key : String)
  | notInteger (key value : String)
deriving DecidableEq, Repr

namespace EditProblem

/-- The problem in words. -/
def message : EditProblem → String
  | .invalidKey key => "Invalid config key: " ++ key
  | .unknownKey key => "Unknown config key: " ++ key
  | .notInteger key value => "Expected integer for " ++ key ++ ", got: " ++ value

/-- The exit code of all these problems. -/
def exitCode : Nat := 2

end EditProblem

/-- Settings after a change, with the new value in words. -/
structure Edited where
  settings : Settings
  shown : String
deriving DecidableEq, Repr

namespace Settings

/-- The words that turn a flag on. -/
def onWords : List String :=
  ["true", "1", "yes", "on"]

/-- Change a flag. -/
def editFlag (value : String) (change : Bool → Settings) : Edited :=
  let b := onWords.contains (Text.lower value)
  ⟨change b, (Document.bool b).shown⟩

/-- Change a setting to what a text spells. -/
def editSetting (s : Settings) (key value : String) : Setting → Except EditProblem Edited
  | .boundedIntegers =>
    .ok (editFlag value fun b => { s with options := { s.options with boundedIntegers := b } })
  | .emitDocs =>
    .ok (editFlag value fun b => { s with options := { s.options with emitDocs := b } })
  | .fetchExternalDocs =>
    .ok (editFlag value fun b => { s with options := { s.options with fetchExternalDocs := b } })
  | .cacheEnabled =>
    .ok (editFlag value fun b => { s with docsCache := { s.docsCache with enabled := b } })
  | .cacheTtl =>
    match Text.integer? value with
    | some n => .ok ⟨{ s with docsCache := { s.docsCache with ttlSeconds := n } }, toString n⟩
    | none => .error (.notInteger key value)
  | .format => .ok ⟨{ s with format := value }, value⟩

/-- Change the setting that a key names. A key that leads through something other than a section
is not valid; one that leads to a section, or out of one to nothing, is not known. -/
def edit (s : Settings) (key value : String) : Except EditProblem Edited :=
  match Setting.ofPath? (Setting.namesOf key) with
  | some setting => s.editSetting key value setting
  | none =>
    if Setting.isSection (Setting.namesOf key).dropLast then .error (.unknownKey key)
    else .error (.invalidKey key)

end Settings

end TypedApi
