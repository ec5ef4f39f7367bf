import TypedApi.Bindings.Basic
import TypedApi.Console.Basic
import TypedApi.Settings.Store
import TypedApi.Source.Load
/-!
The steps that the commands on a document share.

A document is loaded and its version checked, the settings in effect are
worked out, and the model is built, with the remarks of the build as traces.
The cache of documentation stays in the workspace, also after a failure.
-/

set_option autoImplicit false

namespace TypedApi.Command

open Interaction (lift workspace change)

/-- The path of a directory, which is made if it is not there. -/
def useDirectory (d : Directory) : Interaction Workspace.Path := do
  let path := d.path (← workspace)
  change fun w => w.makeFolder path
  return path

/-- The settings in effect. -/
def settingsWith (overrides : Settings.Overrides) : Interaction Settings := do
  let _ ← useDirectory .config
  lift (Settings.resolve (← workspace) overrides)

/-- Load a document and check its version. -/
def loadChecked (source : String) : Interaction Document := do
  let (result, w) := Source.load (← workspace) source
  modify fun s => { s with workspace := w }
  let document ← lift result
  let version ← lift (Source.version document)
  Console.debug ("Loaded OpenAPI " ++ version ++ " document from " ++ source)
  return document

/-- The fetcher of documentation for these settings, with the texts kept in the cache directory. -/
def openFetcher (s : Settings) : Interaction (Docs.Fetcher × String) := do
  let path ← useDirectory .cache
  let w ← workspace
  let place := ((w.place? path).map Workspace.Place.text).getD ""
  return ({ settings := s.docsCache, cache := (w.caches.get? place).getD [], network := w.network },
    place)

/-- Keep the texts of a fetcher and note the requests that it made. -/
def closeFetcher (place : String) (f : Docs.Fetcher) : Interaction Unit :=
  modify fun s =>
    { s with workspace := { s.workspace with
        caches := s.workspace.caches.insert place f.cache
        requests := s.workspace.requests ++ f.requests } }

/-- Convert a document. -/
def convert (document : Document) (s : Settings) : Interaction Model := do
  let opened ← if s.options.fetchExternalDocs then some <$> openFetcher s else pure none
  let (result, bench) := Conversion.run document s.options (opened.map Prod.fst)
  bench.notes.forM fun n => Console.debug n.message
  match opened, bench.docs with
  | some (_, place), some fetcher => closeFetcher place fetcher
  | _, _ => pure ()
  lift result

end TypedApi.Command
