import TypedApi.Docs.Digest
import TypedApi.Docs.Network
import TypedApi.Failure
/-!
Fetching external documentation through a cache.

The cache maps the digest of an address to the text found there. It holds only
what a lookup would still find: with a lifetime that has run out as soon as it
begins, nothing is stored. Failures are never stored, so a failing address is
asked again on every call.
-/

set_option autoImplicit false

namespace TypedApi.Docs

/-- Whether texts are kept, and for how many seconds. -/
structure CacheSettings where
  enabled : Bool := true
  ttlSeconds : Int := 86400
deriving DecidableEq, Repr, Inhabited

/-- The texts kept, by the digest of their address. -/
abbrev Cache := Table String

/-- A cache in front of a network, with the addresses asked so far. -/
structure Fetcher where
  settings : CacheSettings := {}
  cache : Cache := []
  network : Network := []
  requests : List String := []
deriving Inhabited

/-- What a fetch gives: the text or a failure, and whether it came from the cache. -/
structure Fetched where
  result : Except Failure String
  hit : Bool := false

namespace Fetcher

/-- The key of an address in the cache; there is none for half a pair. -/
def key? (url : String) : Option String :=
  if url.toList.any Url.isHalf then none else some (Digest.ofText url)

/-- The text kept under a key. -/
def cached? (f : Fetcher) (key : String) : Option String :=
  if f.settings.enabled then f.cache.get? key else none

/-- Keep a text under a key. -/
def store (f : Fetcher) (key text : String) : Fetcher :=
  if f.settings.enabled && 0 < f.settings.ttlSeconds then
    { f with cache := f.cache.insert key text }
  else f

/-- The failure of a fetch on behalf of the named schema or operation. -/
def failure (url : String) (name : Option String) : FetchProblem → Failure
  | .status code => ⟨.schema (.docsStatus code url) name, none⟩
  | .unreachable reason => ⟨.schema (.docsUnreachable url reason) name, some (.said reason)⟩
  | .unusable => ⟨.unusableAddress url, none⟩

/-- The text at an address, asked for anew and kept under a key. -/
def fetchAnew (f : Fetcher) (url key : String) (name : Option String) : Fetched × Fetcher :=
  let (asked, answer) := f.network.fetch url
  let f := { f with requests := f.requests ++ asked }
  match answer with
  | .ok response => (⟨.ok response.content, false⟩, f.store key response.content)
  | .error problem => (⟨.error (failure url name problem), false⟩, f)

/-- The text at an address, from the cache if it is there. -/
def fetch (f : Fetcher) (url : String) (name : Option String) : Fetched × Fetcher :=
  match key? url with
  | none => (⟨.error (failure url name .unusable), false⟩, f)
  | some key =>
    match f.cached? key with
    | some text => (⟨.ok text, true⟩, f)
    | none => f.fetchAnew url key name

/-- Forget all texts. -/
def clear (f : Fetcher) : Fetcher :=
  if f.settings.enabled then { f with cache := [] } else f

/-- Another fetcher with the same cache and network. -/
def reopen (f : Fetcher) (settings : CacheSettings) : Fetcher :=
  { f with settings := settings }

end Fetcher

end TypedApi.Docs
