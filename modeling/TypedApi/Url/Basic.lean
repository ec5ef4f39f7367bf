import TypedApi.Text.Quoted
/-!
Addresses.

An address is kept in the one form in which it is asked: scheme and host in lower
case, no port where the scheme implies it, a path without detours, and characters
outside ASCII or with a meaning of their own in percent form. A query or a
fragment may be empty and still be there.
-/

set_option autoImplicit false

namespace TypedApi

/-- An address. -/
structure Url where
  scheme : List Char := []
  userInfo : List Char := []
  host : List Char := []
  port : Option Int := none
  path : List Char := []
  query : Option (List Char) := none
  fragment : Option (List Char) := none
deriving DecidableEq, Repr, Inhabited

/-- Why a text is no address. -/
inductive UrlProblem where
  | tooLong
  | control (c : Char) (position : Nat)
  | halfPair
  | badPort (port : String)
  | badFourNumbers (host : String)
  | badGroups (host : String)
  | badName (host : String)
  | pathNotRooted
  | pathLikeAuthority
  | pathLikeScheme
deriving DecidableEq, Repr

/-- The problem in words. -/
def UrlProblem.message : UrlProblem → String
  | .tooLong => "URL too long"
  | .control c position =>
    "Invalid non-printable ASCII character in URL, " ++ Text.shown (String.singleton c) ++
      " at position " ++ toString position ++ "."
  | .halfPair => "Invalid half of a pair in URL"
  | .badPort port => "Invalid port: " ++ Text.shown port
  | .badFourNumbers host => "Invalid IPv4 address: " ++ Text.shown host
  | .badGroups host => "Invalid IPv6 address: " ++ Text.shown host
  | .badName host => "Invalid IDNA hostname: " ++ Text.shown host
  | .pathNotRooted => "For absolute URLs, path must be empty or begin with '/'"
  | .pathLikeAuthority => "Relative URLs cannot have a path starting with '//'"
  | .pathLikeScheme => "Relative URLs cannot have a path starting with ':'"

namespace Url

/-- The host as it stands in the text: in brackets if it holds colons. -/
def hostText (host : List Char) : List Char :=
  if host.contains ':' then '[' :: host ++ [']'] else host

/-- The text of an authority that names a user, a host and a port. -/
def authorityText (userInfo host : List Char) (port : Option Int) : List Char :=
  (if userInfo.isEmpty then [] else userInfo ++ ['@']) ++ hostText host ++
  (match port with | some n => ':' :: (toString n).toList | none => [])

/-- The authority as it stands in the text. -/
def authority (u : Url) : List Char :=
  authorityText u.userInfo u.host u.port

/-- The characters of an address. -/
def toList (u : Url) : List Char :=
  (if u.scheme.isEmpty then [] else u.scheme ++ [':']) ++
  (if u.authority.isEmpty then [] else '/' :: '/' :: u.authority) ++ u.path ++
  (match u.query with | some q => '?' :: q | none => []) ++
  (match u.fragment with | some f => '#' :: f | none => [])

/-- An address as it is written. -/
def text (u : Url) : String :=
  String.ofList u.toList

/-- Whether an address can be asked as it is: it names a scheme and a host. -/
def isAbsolute (u : Url) : Bool :=
  !u.scheme.isEmpty && !u.host.isEmpty

end Url

end TypedApi
