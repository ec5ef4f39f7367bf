import TypedApi.Docs.Fetcher
import TypedApi.Text.Blank
/-!
The surroundings of a command: files, environment, input and network.

Files and folders are known by their places, which are absolute paths without
dots. A path is looked up by walking from the root or the working directory,
folder by folder; two dots lead back to the folder above. Nothing outside the
workspace can be reached, so what a command does is a function of it.
-/

set_option autoImplicit false

namespace TypedApi.Workspace

/-! # Paths as they are written

A path is cut at its slashes. Empty names and the name of a single dot say
nothing and are left out; two dots are kept, since what they mean depends on
the folders that there are. Exactly two slashes at the beginning are a root of
their own; any other number of them is the common root.
-/

/-- A path: the root, which is empty for a relative one, and the names in order. -/
structure Path where
  root : String
  names : List String
deriving DecidableEq, Repr, Inhabited

namespace Path

/-- The root that a path begins with. -/
def rootOf : List Char → String
  | ['/', '/'] => "//"
  | '/' :: '/' :: c :: _ => if c = '/' then "/" else "//"
  | '/' :: _ => "/"
  | _ => ""

/-- Whether a name says something. -/
def isProper (name : String) : Bool :=
  name ≠ "" && name ≠ "."

/-- The path that a text spells. -/
def ofText (text : String) : Path :=
  { root := rootOf text.toList
    names := ((Text.splitAt '/' text.toList).map String.ofList).filter isProper }

/-- Whether a path is relative. -/
def isRelative (p : Path) : Bool :=
  p.root = ""

/-- A path as it is written. -/
def text (p : Path) : String :=
  let names := "/".intercalate p.names
  if p.isRelative && p.names.isEmpty then "." else p.root ++ names

/-- A path with one more name. -/
def child (p : Path) (name : String) : Path :=
  { p with names := p.names ++ [name] }

/-- The last name without what is before its last dot, the dot included; empty if there is no dot,
or if nothing stands before or after it. -/
def extension (p : Path) : String :=
  let name := ((p.names.getLast?).getD "").toList
  let tail := (name.reverse.takeWhile (· ≠ '.')).reverse
  let stem := name.take (name.length - tail.length - 1)
  if tail.length = name.length || tail.isEmpty || stem.isEmpty then ""
  else String.ofList ('.' :: tail)

/-- The count of bytes that a single name may have. -/
def maxNameSize : Nat := 255

/-- Whether some name is too long to be looked up. -/
def hasLongName (p : Path) : Bool :=
  p.names.any fun n => maxNameSize < n.utf8ByteSize

end Path

end TypedApi.Workspace

namespace TypedApi

/-! # Workspaces -/

namespace Workspace

/-- What a file holds: a text, or bytes that are not the encoding of one. -/
inductive Content where
  | text (s : String)
  | bytes (b : ByteArray)
deriving Inhabited

namespace Content

/-- The content made of these bytes. -/
def ofBytes (b : ByteArray) : Content :=
  match String.fromUTF8? b with
  | some s => .text s
  | none => .bytes b

/-- The bytes of a content. -/
def toBytes : Content → ByteArray
  | .text s => s.toUTF8
  | .bytes b => b

/-- A content with a text after it. -/
def append : Content → String → Content
  | .text s, t => .text (s ++ t)
  | .bytes b, t => .bytes (b ++ t.toUTF8)

/-- The text of a content as it is read: each line end becomes a line feed. -/
def read? : Content → Option String
  | .text s => some (String.ofList (Text.unifyNewlines s.toList))
  | .bytes _ => none

end Content

/-- An absolute place: the names from the root down. -/
abbrev Place := List String

/-- A place as it is written. -/
def Place.text (place : Place) : String :=
  "/" ++ "/".intercalate place

end Workspace

open Workspace

/-- Files and folders by their places, and all else that a command can see. -/
structure Workspace where
  files : Table Content := []
  folders : List String := []
  workingDirectory : Place := []
  environment : Table String := []
  /-- The name of the operating system. -/
  platform : String := "Linux"
  /-- What can be read from the standard input. -/
  input : String := ""
  network : Docs.Network := []
  /-- The kept documentation, by the place of its folder. -/
  caches : Table Docs.Cache := []
  /-- The addresses asked so far. -/
  requests : List String := []
  /-- What names of logs have in place of the time. -/
  timestamp : String := ""
deriving Inhabited

namespace Workspace

/-- The value of an environment variable, empty if it is not set. -/
def env (w : Workspace) (name : String) : String :=
  (w.environment.get? name).getD ""

/-- Whether there is a folder at a place. The root is one. -/
def isFolder (w : Workspace) (place : Place) : Bool :=
  place.isEmpty || w.folders.contains place.text

/-- The place that names lead to from another place, if all but the last lead through folders. -/
def walk (w : Workspace) (place : Place) : List String → Option Place
  | [] => some place
  | [name] => some (if name = ".." then place.dropLast else place ++ [name])
  | name :: rest =>
    let next := if name = ".." then place.dropLast else place ++ [name]
    if w.isFolder next then walk w next rest else none

/-- Where a path begins. -/
def start (w : Workspace) (p : Path) : Place :=
  if p.isRelative then w.workingDirectory else []

/-- The place of a path. -/
def place? (w : Workspace) (p : Path) : Option Place :=
  w.walk (w.start p) p.names

/-- The file at a path. -/
def file? (w : Workspace) (p : Path) : Option Content :=
  (w.place? p).bind fun place => w.files.get? place.text

/-- Make a folder and those above it. It is an error if a file is in the way. -/
def makeFolders (w : Workspace) (place : Place) : List String → Option Workspace
  | [] => some w
  | name :: rest =>
    let next : Place := if name = ".." then place.dropLast else place ++ [name]
    if w.files.contains next.text then none
    else if w.isFolder next then makeFolders w next rest
    else makeFolders { w with folders := w.folders ++ [next.text] } next rest

/-- Make the folder at a path and those above it. -/
def makeFolder (w : Workspace) (p : Path) : Except Failure Workspace :=
  match w.makeFolders (w.start p) p.names with
  | some w => .ok w
  | none => fail (.unusablePath p.text)

/-- Write a file in a folder that exists, replacing what was there. -/
def writeFile (w : Workspace) (p : Path) (content : Content) : Except Failure Workspace :=
  match w.place? p with
  | none => fail (.unusablePath p.text)
  | some place =>
    if w.isFolder place || !w.isFolder place.dropLast then fail (.unusablePath p.text)
    else .ok { w with files := w.files.insert place.text content }

/-- Write a text at the end of a file, which is made if it is not there. -/
def appendFile (w : Workspace) (p : Path) (text : String) : Except Failure Workspace :=
  w.writeFile p (((w.file? p).getD (.text "")).append text)

end Workspace

end TypedApi
