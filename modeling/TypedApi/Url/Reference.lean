import TypedApi.Text.Blank
import TypedApi.Url.Parts
import TypedApi.Url.Reading
/-!
Addresses seen from other addresses.

A reference names only what differs from the address it is seen from: parts that
it leaves out, from the scheme on, are taken from there, and a path that does not
begin with a slash goes on from the folder of the other path. Parameters are what
follows a semicolon in the last segment of a path. A part that is empty counts as
left out.
-/

set_option autoImplicit false

namespace TypedApi.Url

/-- A reference in parts. -/
structure Reference where
  scheme : List Char := []
  authority : List Char := []
  path : List Char := []
  parameters : List Char := []
  query : List Char := []
  fragment : List Char := []
deriving DecidableEq, Repr

/-- The schemes whose addresses can be seen from each other; all of them have an authority. -/
def relativeSchemes : List String :=
  ["", "ftp", "http", "gopher", "nntp", "imap", "wais", "file", "https", "shttp", "mms", "prospero",
   "rtsp", "rtsps", "rtspu", "sftp", "svn", "svn+ssh", "ws", "wss"]

/-- The other schemes whose addresses have an authority, even an empty one. -/
def authoritySchemes : List String :=
  ["telnet", "snews", "rsync", "nfs", "git", "git+ssh"]

/-- The schemes whose paths have parameters. -/
def parameterSchemes : List String :=
  ["", "ftp", "hdl", "prospero", "http", "imap", "https", "shttp", "rtsp", "rtsps", "rtspu", "sip",
   "sips", "mms", "sftp", "tel"]

/-- Whether a scheme is in a list. -/
def isAmong (schemes : List String) (scheme : List Char) : Bool :=
  schemes.contains (String.ofList scheme)

/-- A path without the parameters of its last segment, and these. -/
def cutParameters (path : List Char) : List Char × List Char :=
  let last := (path.reverse.takeWhile (· ≠ '/')).reverse
  let folder := path.take (path.length - last.length)
  (folder ++ last.takeWhile (· ≠ ';'), (last.dropWhile (· ≠ ';')).drop 1)

namespace Reference

/-- The reference that a text spells; a scheme that it leaves out is the given one. -/
def ofText (scheme cs : List Char) : Reference :=
  let p := Parts.ofText cs
  let scheme := p.scheme.getD scheme
  let (path, parameters) :=
    if isAmong parameterSchemes scheme then cutParameters p.path else (p.path, [])
  { scheme, path, parameters
    authority := p.authority.getD []
    query := p.query.getD []
    fragment := p.fragment.getD [] }

/-- A reference as it is written. -/
def text (r : Reference) : List Char :=
  let path := r.path ++ if r.parameters.isEmpty then [] else ';' :: r.parameters
  let hasAuthority := !r.authority.isEmpty ||
    (!r.scheme.isEmpty && isAmong (relativeSchemes ++ authoritySchemes) r.scheme) ||
    path.take 2 = ['/', '/']
  let path := if hasAuthority && !path.isEmpty && path.head? ≠ some '/' then '/' :: path else path
  (if r.scheme.isEmpty then [] else r.scheme ++ [':']) ++
  (if hasAuthority then '/' :: '/' :: r.authority else []) ++ path ++
  (if r.query.isEmpty then [] else '?' :: r.query) ++
  (if r.fragment.isEmpty then [] else '#' :: r.fragment)

end Reference

/-- One step of a walk along segments, the last one first: a dot stays, and two dots go back as long
as there is a segment. -/
def stepSegment (walked : List (List Char)) (segment : List Char) : List (List Char) :=
  if segment = ['.'] then walked
  else if segment = ['.', '.'] then walked.drop 1
  else segment :: walked

/-- Leave out the empty ones among some segments, but for the first and the last. -/
def dropEmptyWithin : List (List Char) → List (List Char)
  | [] => []
  | first :: rest =>
    first :: (rest.dropLast.filter fun s => !s.isEmpty) ++ rest.getLast?.toList

/-- The segments of a path that are folders. -/
def folders (path : List Char) : List (List Char) :=
  let segments := Text.splitAt '/' path
  if segments.getLast? = some [] then segments else segments.dropLast

/-- A path seen from another. -/
def joinPath (base path : List Char) : List Char :=
  let segments :=
    if path.head? = some '/' then Text.splitAt '/' path
    else dropEmptyWithin (folders base ++ Text.splitAt '/' path)
  let walked := segments.foldl stepSegment []
  let last := segments.getLast?
  let walked := if last = some ['.'] || last = some ['.', '.'] then [] :: walked else walked
  let joined := List.intercalate ['/'] walked.reverse
  if joined.isEmpty then ['/'] else joined

/-- The address that a reference stands for, seen from another address. -/
def join (base target : List Char) : List Char :=
  if base.isEmpty then target
  else if target.isEmpty then base
  else
    let b := Reference.ofText [] base
    let t := Reference.ofText b.scheme target
    if t.scheme ≠ b.scheme || !isAmong relativeSchemes t.scheme then target
    else if !t.authority.isEmpty then t.text
    else if t.path.isEmpty && t.parameters.isEmpty then
      { t with
        authority := b.authority, path := b.path, parameters := b.parameters
        query := if t.query.isEmpty then b.query else t.query }.text
    else { t with authority := b.authority, path := joinPath b.path t.path }.text

/-! # Where a response sends a request

The response names a location, which may be seen from the address that was asked.
A location with a scheme but without a host is on the same host, and one without
a fragment keeps the fragment of the address.
-/

/-- Why a location leads nowhere: it is no address itself, or there is none once it is seen from the
address that was asked. -/
inductive RedirectProblem where
  | refused (problem : UrlProblem)
  | unusable
deriving DecidableEq, Repr

/-- What a step gives, or that the location cannot be used. -/
def orUnusable {α : Type} : Option α → Except RedirectProblem α
  | some a => .ok a
  | none => .error .unusable

/-- An address on another host. -/
def onHost (u : Url) (host : List Char) : Except UrlProblem Url :=
  rebuild { u.parts with authority := some (authorityText u.userInfo host u.port) }

/-- An address with the fragment of another, unless it has one or the other has none. -/
def keepFragment (u base : Url) : Except UrlProblem Url :=
  let kept := unescape (base.fragment.getD [])
  if kept.isEmpty || !(u.fragment.getD []).isEmpty then .ok u
  else rebuild { u.parts with fragment := some kept }

/-- The address that a location stands for, seen from the address that was asked. -/
def redirect (base : Url) (location : String) : Except RedirectProblem Url := do
  let target ←
    match read location with
    | .ok u => pure u
    | .error p => throw (.refused p)
  let host ← orUnusable (ownHost? base.host)
  let target ←
    if target.scheme.isEmpty then pure target
    else do
      let _ ← orUnusable (ownHost? target.host)
      if target.host.isEmpty then orUnusable (target.onHost host).toOption else pure target
  let target ←
    if target.isAbsolute then pure target
    else orUnusable (read (String.ofList (join base.toList target.toList))).toOption
  let target ← orUnusable (target.keepFragment base).toOption
  let _ ← orUnusable (ownHost? target.host)
  return target

end TypedApi.Url
