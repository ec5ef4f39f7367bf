import TypedApi.Text.Digit
import TypedApi.Text.Half
import TypedApi.Url.Host
import TypedApi.Url.Parts
/-!
Reading addresses.

A text is cut into parts, and each part is brought into the form in which it is
kept. Some texts are refused: those that are too long or hold control characters,
hosts and ports that are none, and paths that would be taken for something else
once the address is written.
-/

set_option autoImplicit false

namespace TypedApi.Url

/-- The greatest length of an address, and of each of its parts. -/
def maxLength : Nat := 65536

/-! ## What parts admit -/

/-- Whether a character is printable and ASCII, and not one of some others. -/
def printableBut (others : String) (c : Char) : Bool :=
  0x20 ≤ c.toNat && c.toNat ≤ 0x7e && !others.toList.contains c

/-- Whether a user's name or password admits a character as it is. -/
def inUserInfo : Char → Bool :=
  printableBut " \"#<>?`\x7b\x7d/;=@[\\]^|"

/-- Whether a path admits a character as it is. -/
def inPathText : Char → Bool :=
  printableBut " \"#<>?`\x7b\x7d"

/-- Whether a query admits a character as it is. -/
def inQueryText : Char → Bool :=
  printableBut " \"#<>"

/-- Whether a fragment admits a character as it is. -/
def inFragmentText : Char → Bool :=
  printableBut " \"<>`"

/-! ## Ports -/

/-- The port that a scheme implies. -/
def impliedPort? (scheme : List Char) : Option Int :=
  match String.ofList scheme with
  | "ftp" => some 21
  | "http" | "ws" => some 80
  | "https" | "wss" => some 443
  | _ => none

/-- The port that a text spells, if there is one and the scheme does not imply it. -/
def readPort (scheme port : List Char) : Except UrlProblem (Option Int) :=
  if port.isEmpty then .ok none
  else
    match Text.integer? (String.ofList port) with
    | some n => .ok (if impliedPort? scheme = some n then none else some n)
    | none => .error (.badPort (String.ofList port))

/-! ## Paths -/

/-- One step of a walk along the segments of a path, the last segment first: a dot stays, and two
dots go back, except from the root. -/
def walkSegment (walked : List (List Char)) (segment : List Char) : List (List Char) :=
  if segment = ['.'] then walked
  else if segment = ['.', '.'] then
    if walked = [] || walked = [[]] then walked else walked.drop 1
  else segment :: walked

/-- A path without detours. -/
def straighten (path : List Char) : List Char :=
  let segments := Text.splitAt '/' path
  if segments.contains ['.'] || segments.contains ['.', '.'] then
    List.intercalate ['/'] (segments.foldl walkSegment []).reverse
  else path

/-- Refuse a path that the address would not give back. -/
def checkPath (hasScheme hasAuthority : Bool) (path : List Char) : Except UrlProblem Unit :=
  if hasAuthority then
    if path.isEmpty || path.head? = some '/' then .ok () else .error .pathNotRooted
  else if hasScheme then .ok ()
  else if path.take 2 = ['/', '/'] then .error .pathLikeAuthority
  else if path.head? = some ':' then .error .pathLikeScheme
  else .ok ()

/-! ## Addresses -/

/-- Whether a character stands for half a pair, and so has no bytes. -/
def isHalf (c : Char) : Bool :=
  (Text.halfUnit? c).isSome

/-- The address with the given parts. -/
def ofParts (p : Parts) : Except UrlProblem Url := do
  let given := p.scheme.getD []
  let a := Authority.ofText (p.authority.getD [])
  let host ← readHost a.host
  let port ← readPort given a.port
  let hasScheme := !given.isEmpty
  let hasAuthority := !a.userInfo.isEmpty || !host.isEmpty || port.isSome
  checkPath hasScheme hasAuthority p.path
  let path := if hasScheme || hasAuthority then straighten p.path else p.path
  if (a.userInfo ++ path ++ p.query.getD [] ++ p.fragment.getD []).any isHalf then .error .halfPair
  return {
    scheme := given.map Char.toLower
    userInfo := escape inUserInfo a.userInfo
    host, port
    path := escape inPathText path
    query := p.query.map (escape inQueryText)
    fragment := p.fragment.map (escape inFragmentText) }

/-- Refuse a text that is too long or holds a control character. -/
def checkText (cs : List Char) : Except UrlProblem Unit :=
  let isControl := fun (c : Char) => decide (c.toNat < 0x20) || c.toNat = 0x7f
  if maxLength < cs.length then .error .tooLong
  else
    match cs.find? isControl with
    | some c => .error (.control c (cs.takeWhile fun d => !isControl d).length)
    | none => .ok ()

/-- The address that a text spells. -/
def read (text : String) : Except UrlProblem Url := do
  checkText text.toList
  ofParts (.ofText text.toList)

/-- The address with other parts than those it was read from; each is checked as a text is. -/
def rebuild (p : Parts) : Except UrlProblem Url := do
  checkText (p.scheme.getD [])
  checkText (p.authority.getD [])
  checkText p.path
  checkText (p.query.getD [])
  checkText (p.fragment.getD [])
  ofParts p

/-- The parts of an address. -/
def parts (u : Url) : Parts :=
  { scheme := some u.scheme, authority := some u.authority, path := u.path, query := u.query
    fragment := u.fragment }

/-- The address as a server is asked for it. One without a scheme or a host keeps its path and its
query only. -/
def request (text : String) : Except UrlProblem Url := do
  let u ← read text
  let asked ←
    if u.isAbsolute then pure u
    else rebuild { path := '/' :: u.path.dropWhile (· = '/'), query := u.query }
  match ownHost? asked.host with
  | some _ => return asked
  | none => .error (.badName (String.ofList asked.host))

end TypedApi.Url
