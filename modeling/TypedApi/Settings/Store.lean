import TypedApi.Document.Json.Reader
import TypedApi.Document.Json.Writer
import TypedApi.Settings.Layer
import TypedApi.Workspace.Basic
/-!
Stored settings, and those in effect.

Settings are stored as a JSON file in the directory for settings; without the
file all have their defaults. A project may have a file in the working
directory, which gives what differs. The settings in effect come from both,
the environment and the command line, the last of these counting most.
-/

set_option autoImplicit false

namespace TypedApi

/-! # The directories of settings, cache and logs

On systems that follow the base directory convention each has a variable, with
a folder in the home directory as the default; elsewhere all three are in one
folder there.
-/

/-- The kinds of directories. -/
inductive Directory where
  | config
  | cache
  | data
deriving DecidableEq, Repr

namespace Directory

/-- Whether a system follows the base directory convention. -/
def hasBaseDirectories (platform : String) : Bool :=
  platform = "Linux" || "DSB".toList.isPrefixOf platform.toList.reverse

/-- The variable that says where a kind of directories is. -/
def variableName : Directory → String
  | .config => "XDG_CONFIG_HOME"
  | .cache => "XDG_CACHE_HOME"
  | .data => "XDG_DATA_HOME"

/-- Where a kind of directories is in the home directory, by default. -/
def standardNames : Directory → List String
  | .config => [".config"]
  | .cache => [".cache"]
  | .data => [".local", "share"]

/-- Where a directory is in the one folder. -/
def plainNames : Directory → List String
  | .config => []
  | .cache => ["cache"]
  | .data => ["logs"]

/-- The home directory. -/
def home (w : Workspace) : Workspace.Path :=
  let path := Workspace.Path.ofText (w.env "HOME")
  if path.isRelative && path.names.isEmpty then Workspace.Path.ofText "/" else path

/-- Some names below a path. -/
def below (path : Workspace.Path) (names : List String) : Workspace.Path :=
  { path with names := path.names ++ names }

/-- The path of a directory. -/
def path (d : Directory) (w : Workspace) : Workspace.Path :=
  if hasBaseDirectories w.platform then
    let value := w.env d.variableName
    let base := if value = "" then below (home w) d.standardNames else Workspace.Path.ofText value
    base.child "apimodel"
  else below ((home w).child ".apimodel") d.plainNames

end Directory

end TypedApi

namespace TypedApi.Settings

/-! # Stored settings -/

open Workspace (Content)

/-- The path of the stored settings. -/
def storedPath (w : Workspace) : Workspace.Path :=
  (Directory.config.path w).child "config.json"

/-- The path of a project's settings. -/
def projectPath : Workspace.Path :=
  Workspace.Path.ofText "apimodel.json"

/-- The document that a content spells. One that spells none is reported as the given problem,
unless that is for its depth. -/
def documentOf (problem : SettingsProblem) (content : Content) : Except Failure Document :=
  match content.read?.map Document.Json.read with
  | some (.ok d) => .ok d
  | some (.error .tooDeep) => .error .malformed
  | _ => fail (.settings problem)

/-- The stored settings. -/
def stored (w : Workspace) : Except Failure Settings :=
  match w.file? (storedPath w) with
  | none => .ok {}
  | some content => do
    match ofDocument? (← documentOf .invalidGlobal content) with
    | some s => return s
    | none => fail (.settings .invalidGlobal)

/-- The document of a project's settings, if there is one. It has to be an object. -/
def project? (w : Workspace) : Except Failure (Option Document) :=
  match w.file? projectPath with
  | none => .ok none
  | some content => do
    let d ← documentOf .invalidProject content
    if d.isObject then return some d
    else
      fail (.settings (.projectNotObject
        (Workspace.Place.text (w.workingDirectory ++ projectPath.names))))

/-- Settings with those of a project laid over them. -/
def withProject (s : Settings) : Option Document → Except Failure Settings
  | none => .ok s
  | some d =>
    match ofDocument? (s.dump.layer d) with
    | some t => .ok t
    | none => fail (.settings .invalidProject)

/-- The settings in effect. -/
def resolve (w : Workspace) (flags : Overrides) : Except Failure Settings := do
  let base ← stored w
  let layered ← base.withProject (← project? w)
  let env ← environmentOverrides w.env
  return (layered.override env).override flags

/-- Settings as they are stored. Their keys are texts, so there is such a form. -/
def text (s : Settings) : String :=
  (Document.Json.writeAscii? s.dump).getD "" ++ "\n"

/-- Store settings. -/
def save (s : Settings) (w : Workspace) : Except Failure Workspace := do
  let w ← w.makeFolder (Directory.config.path w)
  w.writeFile (storedPath w) (.text s.text)

end TypedApi.Settings
