import TypedApi.Docs.Charset
import TypedApi.Table
import TypedApi.Url.Reference
/-!
The network, as far as fetching a document goes.

A network maps an address, in the form in which it is asked, to its answer: a
response, or the reason why there is none. An address it does not know refuses the
connection. A response that moves the request elsewhere is followed, twenty times
at most.
-/

set_option autoImplicit false

namespace TypedApi.Docs

/-- The answer of a server. -/
structure Response where
  status : Nat := 200
  text : String := ""
  contentType : String := "text/plain; charset=utf-8"
  location : Option String := none
deriving Repr, Inhabited

/-- The text of a response as it is read: it is sent in UTF-8 and read in the charset of its type. -/
def Response.content (r : Response) : String :=
  String.ofList ((Charset.ofContentType r.contentType).read r.text.toUTF8.toList)

/-- What a request to an address comes to. -/
inductive Answer where
  | response (r : Response)
  | failure (reason : String)
deriving Repr, Inhabited

/-- The addresses that answer. -/
abbrev Network := Table Answer

/-- Why an address gave no usable response. It is unusable if it, or a place that it leads to, is no
address at all, or if an answer on the way cannot be sent. -/
inductive FetchProblem where
  | status (code : Nat)
  | unreachable (reason : String)
  | unusable
deriving DecidableEq, Repr

/-- Whether a response can be sent: its headers are ASCII, and its text is made of whole
characters. -/
def Response.isSendable (r : Response) : Bool :=
  Url.Domain.isAscii r.contentType.toList &&
    (r.location.all fun location => Url.Domain.isAscii location.toList) &&
    !r.text.toList.any Url.isHalf

namespace Network

/-- Whether a status moves a request elsewhere. -/
def isRedirect (status : Nat) : Bool :=
  [301, 302, 303, 307, 308].contains status

/-- What one request comes to: an end, or another address to ask. -/
inductive Step where
  | done (result : Except FetchProblem Response)
  | moved (url : Url)

/-- What a response comes to. -/
def receive (url : Url) (r : Response) : Step :=
  match r.location, isRedirect r.status with
  | some location, true =>
    match url.redirect location with
    | .ok target => .moved target
    | .error (.refused p) =>
      .done (.error (.unreachable ("Invalid URL in location header: " ++ p.message ++ ".")))
    | .error .unusable => .done (.error .unusable)
  | _, _ => .done (if 200 ≤ r.status && r.status < 300 then .ok r else .error (.status r.status))

/-- Ask one address. -/
def ask (network : Network) (url : Url) : Step :=
  match network.get? url.text with
  | none => .done (.error (.unreachable "connection refused"))
  | some (.failure reason) => .done (.error (.unreachable reason))
  | some (.response r) => if r.isSendable then receive url r else .done (.error .unusable)

/-- Ask an address, following redirections as often as the fuel allows; gives the addresses asked,
in order, and the final response. -/
def follow (network : Network) (url : Url) : Nat → List String × Except FetchProblem Response
  | 0 =>
    match network.ask url with
    | .done result => ([url.text], result)
    | .moved _ => ([url.text], .error (.unreachable "Exceeded maximum allowed redirects."))
  | fuel + 1 =>
    match network.ask url with
    | .done result => ([url.text], result)
    | .moved target =>
      let (asked, result) := network.follow target fuel
      (url.text :: asked, result)

/-- The count of redirections that are followed. -/
def maxRedirects : Nat := 20

/-- Fetch what an address names: the addresses asked, in order, and the final response. -/
def fetch (network : Network) (address : String) : List String × Except FetchProblem Response :=
  match Url.request address with
  | .ok url => network.follow url maxRedirects
  | .error _ => ([], .error .unusable)

end Network

end TypedApi.Docs
