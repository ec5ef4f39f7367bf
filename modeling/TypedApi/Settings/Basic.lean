import TypedApi.Conversion
import TypedApi.Document.Coercion
import TypedApi.Dump
/-!
Settings.

The settings are grouped in sections, and as a document each section is an
object. `Settings.ofDocument?` reads what a document gives and takes the
default for the rest; it refuses a section that is no object and a value that
does not spell one of the setting's type. Unknown keys are passed over.
-/

set_option autoImplicit false

namespace TypedApi

/-- All settings. -/
structure Settings where
  options : ConversionOptions := {}
  docsCache : Docs.CacheSettings := {}
  /-- The name of the output format. -/
  format : String := "auto"
deriving DecidableEq, Repr, Inhabited

namespace Settings

open Document (record)

/-- Settings as a document. -/
def dump (s : Settings) : Document :=
  record [
    ("generator", record [
      ("bounded_integers", .bool s.options.boundedIntegers),
      ("emit_docs", .bool s.options.emitDocs),
      ("fetch_external_docs", .bool s.options.fetchExternalDocs),
      ("docs_cache", record [
        ("enabled", .bool s.docsCache.enabled),
        ("ttl_seconds", .int s.docsCache.ttlSeconds)])]),
    ("output", record [("format", .text s.format)])]

/-- The section of a document, empty if it is missing; `none` if it is no object. -/
def section? (d : Document) (key : String) : Option Document :=
  match d.find? key with
  | none => some (.object [])
  | some s => if s.isObject then some s else none

/-- The value that a field spells, or the default if there is no such field. -/
def valueOr {α : Type} (read? : Document → Option α) (d : Document) (key : String) (default : α) :
    Option α :=
  match d.find? key with
  | none => some default
  | some v => read? v

/-- The settings that a document gives, with defaults for the rest. -/
def ofDocument? (d : Document) : Option Settings := do
  if !d.isObject then none
  let generator ← section? d "generator"
  let cache ← section? generator "docs_cache"
  let output ← section? d "output"
  return {
    options := {
      boundedIntegers := ← valueOr Document.flag? generator "bounded_integers" true
      emitDocs := ← valueOr Document.flag? generator "emit_docs" true
      fetchExternalDocs := ← valueOr Document.flag? generator "fetch_external_docs" true }
    docsCache := {
      enabled := ← valueOr Document.flag? cache "enabled" true
      ttlSeconds := ← valueOr Document.count? cache "ttl_seconds" 86400 }
    format := ← valueOr Document.text? output "format" "auto" }

end Settings

end TypedApi
