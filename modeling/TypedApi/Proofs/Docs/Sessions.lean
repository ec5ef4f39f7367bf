import TypedApi.Docs.Fetcher
import Mathlib.Data.List.Pairwise
/-!
Fetching through a cache that several fetchers share.

Fetchers over one cache differ in their settings only, so what they do is one session: calls one
after the other, each with the settings of its fetcher. Against a network whose answers stay as they
are, the cache changes nothing about what a call answers; it only spares requests. A text is kept
once it has been fetched, an empty one too, and from then on its address is not asked on its own
account. A failure is never kept, so a call that fails has asked again.

The cache knows addresses as they are written. One that has been fetched may be asked again where
another leads to it: by a redirection, or because it is the same address in another spelling.
-/

set_option autoImplicit false

namespace TypedApi.Docs

/-! ## Sessions -/

/-- A call of a fetcher: the settings of this fetcher, the address, and the schema or operation that
it documents. -/
structure FetchCall where
  settings : CacheSettings := {}
  url : String
  name : Option String := none

/-- What a call comes to: the text or a failure, and the addresses asked for it. -/
structure Reply where
  result : Except Failure String
  asked : List String

namespace FetchCall

/-- Whether a text that the call fetches is kept for later ones: there is a cache, and nothing in it
has run out as soon as it is stored. -/
def keeps (c : FetchCall) : Bool :=
  c.settings.enabled && 0 < c.settings.ttlSeconds

/-- The call of a fetcher that is the same but has no cache. -/
def uncached (c : FetchCall) : FetchCall :=
  { c with settings := { c.settings with enabled := false } }

end FetchCall

/-- What a call comes to, and the cache and the network after it. -/
def Fetcher.reply (f : Fetcher) (c : FetchCall) : Reply × Fetcher :=
  let (fetched, after) := { f.reopen c.settings with requests := [] }.fetch c.url c.name
  (⟨fetched.result, after.requests⟩, after)

/-- Calls one after the other, each with what it comes to. -/
def Fetcher.session (f : Fetcher) : List FetchCall → List (FetchCall × Reply)
  | [] => []
  | c :: calls => (c, (f.reply c).1) :: (f.reply c).2.session calls

/-- A session that begins with an empty cache. -/
def session (network : Network) (calls : List FetchCall) : List (FetchCall × Reply) :=
  Fetcher.session { network } calls

/-- No two addresses of the calls have one key. -/
def SeparateKeys (calls : List FetchCall) : Prop :=
  ∀ c ∈ calls, ∀ d ∈ calls, ∀ key, Fetcher.key? c.url = some key → Fetcher.key? d.url = some key →
    c.url = d.url

/-- Addresses with different keys can be called in any order and as often as one likes. -/
theorem separateKeys_of_pairwise (urls : List String) {calls : List FetchCall}
    (h : urls.Pairwise fun u v => Fetcher.key? u ≠ Fetcher.key? v)
    (hurls : ∀ c ∈ calls, c.url ∈ urls) : SeparateKeys calls := by
  intro c hc d hd key hkey hkey'
  by_contra hne
  have hsymm : Std.Symm fun u v : String => Fetcher.key? u ≠ Fetcher.key? v := ⟨fun _ _ => Ne.symm⟩
  exact h.forall (hurls c hc) (hurls d hd) hne (hkey.trans hkey'.symm)

/-- The form in which an address is asked; a text that is no address has none. -/
def asked? (url : String) : Option String :=
  match Fetcher.key? url, Url.request url with
  | some _, .ok address => some address.text
  | _, _ => none

/-! ## Without a cache -/

/-- What a network says to a call. -/
def Network.reply (network : Network) (c : FetchCall) : Reply :=
  match Fetcher.key? c.url with
  | none => ⟨.error (Fetcher.failure c.url c.name .unusable), []⟩
  | some _ =>
    match network.fetch c.url with
    | (asked, .ok response) => ⟨.ok response.content, asked⟩
    | (asked, .error problem) => ⟨.error (Fetcher.failure c.url c.name problem), asked⟩

variable {network : Network} {f : Fetcher} {c : FetchCall} {calls : List FetchCall}
  {url key : String}

/-- A network is asked for the address itself first, wherever it leads. -/
theorem Network.head_follow (network : Network) (address : Url) (fuel : Nat) :
    (network.follow address fuel).1.head? = some address.text := by
  cases fuel with
  | zero =>
    rw [Network.follow]
    split <;> rfl
  | succ fuel =>
    rw [Network.follow]
    split <;> rfl

theorem Network.head_asked_reply (network : Network) (c : FetchCall) :
    (network.reply c).asked.head? = asked? c.url := by
  rw [Network.reply, asked?]
  cases Fetcher.key? c.url with
  | none => rfl
  | some key =>
    dsimp only
    rw [Network.fetch]
    cases Url.request c.url with
    | error problem => rfl
    | ok address =>
      dsimp only
      have hhead := Network.head_follow network address Network.maxRedirects
      rcases hfollow : network.follow address Network.maxRedirects with ⟨asked, problem | response⟩
      · rwa [hfollow] at hhead
      · rwa [hfollow] at hhead

/-! ## One call -/

/-- Whether there is a text for an address in the cache. -/
def Fetcher.Holds (f : Fetcher) (url : String) : Prop :=
  ∃ key text, Fetcher.key? url = some key ∧ f.cache.get? key = some text

/-- A call for an address in the cache is answered from there. -/
theorem Fetcher.reply_of_holds {text : String} (henabled : c.settings.enabled = true)
    (hkey : Fetcher.key? c.url = some key) (htext : f.cache.get? key = some text) :
    (f.reply c).1 = ⟨.ok text, []⟩ ∧ (f.reply c).2.cache = f.cache ∧
      (f.reply c).2.network = f.network := by
  have hcached :
      ({ f.reopen c.settings with requests := [] } : Fetcher).cached? key = some text := by
    rw [Fetcher.cached?, Fetcher.reopen, if_pos henabled, htext]
  rw [Fetcher.reply, Fetcher.fetch, hkey]
  dsimp only
  rw [hcached]
  exact ⟨rfl, rfl, rfl⟩

/-- Any other call is answered by the network. A text that it fetches goes into the cache, unless
the call does not keep it, and nothing else does. -/
theorem Fetcher.reply_of_not_holds (h : c.settings.enabled = true → ¬f.Holds c.url) :
    (f.reply c).1 = f.network.reply c ∧ (f.reply c).2.network = f.network ∧
      ((f.reply c).2.cache = f.cache ∧
          (c.keeps = true → ∀ text, (f.network.reply c).result ≠ .ok text) ∨
        ∃ key text, key? c.url = some key ∧ (f.network.reply c).result = .ok text ∧
          (f.reply c).2.cache = f.cache.insert key text) := by
  rw [reply, fetch, Network.reply]
  cases hkey : key? c.url with
  | none => exact ⟨rfl, rfl, .inl ⟨rfl, fun _ _ => nofun⟩⟩
  | some key =>
    have hcached : ({ f.reopen c.settings with requests := [] } : Fetcher).cached? key = none := by
      rw [cached?, reopen]
      split
      · rename_i henabled
        refine Option.eq_none_iff_forall_ne_some.mpr fun text htext => ?_
        exact h henabled ⟨key, text, hkey, htext⟩
      · rfl
    dsimp only
    rw [hcached, fetchAnew]
    dsimp only [reopen]
    rcases hfetch : f.network.fetch c.url with ⟨asked, problem | response⟩
    · exact ⟨rfl, rfl, .inl ⟨rfl, fun _ _ => nofun⟩⟩
    · dsimp only [store]
      by_cases hkeeps : c.keeps = true
      · have hstored : (c.settings.enabled && decide (0 < c.settings.ttlSeconds)) = true := hkeeps
        rw [if_pos hstored]
        exact ⟨rfl, rfl, .inr ⟨key, response.content, rfl, rfl, rfl⟩⟩
      · have hstored : ¬(c.settings.enabled && decide (0 < c.settings.ttlSeconds)) = true := hkeeps
        rw [if_neg hstored]
        exact ⟨rfl, rfl, .inl ⟨rfl, fun h => absurd h hkeeps⟩⟩

/-! ## What a call keeps -/

/-- Whether a fetcher asks a network, and its cache says of all calls what the network says. -/
structure Fetcher.Mirrors (f : Fetcher) (network : Network) (calls : List FetchCall) : Prop where
  network_eq : f.network = network
  result_eq : ∀ c ∈ calls, ∀ key text, key? c.url = some key → f.cache.get? key = some text →
    (network.reply c).result = .ok text

/-- A fetcher with an empty cache. -/
theorem Fetcher.mirrors_empty (network : Network) (calls : List FetchCall) :
    Fetcher.Mirrors { network } network calls where
  network_eq := rfl
  result_eq := fun _ _ _ _ _ h => nomatch h

/-- For whom an address is fetched shows in failures only. -/
theorem Network.result_congr {d : FetchCall} {text : String} (hurl : c.url = d.url)
    (h : (network.reply c).result = .ok text) : (network.reply d).result = .ok text := by
  rw [Network.reply] at h ⊢
  rw [← hurl]
  cases hkey : Fetcher.key? c.url with
  | none =>
    rw [hkey] at h
    cases h
  | some key =>
    rw [hkey] at h
    dsimp only at h ⊢
    rcases hfetch : network.fetch c.url with ⟨asked, problem | response⟩
    · rw [hfetch] at h
      cases h
    · rwa [hfetch] at h

namespace Fetcher

/-- **A call answers what the network says**, and either it is answered from the cache and asks
nothing, or it asks what the network has it ask. -/
theorem Mirrors.reply (hf : f.Mirrors network calls) (hc : c ∈ calls) :
    (f.reply c).1.result = (network.reply c).result ∧
      (f.Holds c.url ∧ (∃ text, (f.reply c).1.result = .ok text) ∧ (f.reply c).1.asked = [] ∨
        (c.settings.enabled = true → ¬f.Holds c.url) ∧ (f.reply c).1 = network.reply c) := by
  by_cases hhit : c.settings.enabled = true ∧ f.Holds c.url
  · obtain ⟨henabled, key, text, hkey, htext⟩ := hhit
    have hreply := (reply_of_holds henabled hkey htext).1
    rw [hreply, hf.result_eq c hc key text hkey htext]
    exact ⟨rfl, .inl ⟨⟨key, text, hkey, htext⟩, ⟨text, rfl⟩, rfl⟩⟩
  · have hmiss : c.settings.enabled = true → ¬f.Holds c.url := fun h h' => hhit ⟨h, h'⟩
    have hreply := (reply_of_not_holds hmiss).1
    rw [hf.network_eq] at hreply
    rw [hreply]
    exact ⟨rfl, .inr ⟨hmiss, rfl⟩⟩

/-- The cache after a call: as it was, or with one more text, which the network has given. -/
theorem cache_reply (f : Fetcher) (c : FetchCall) :
    (f.reply c).2.network = f.network ∧
      ((f.reply c).2.cache = f.cache ∨
        ∃ key text, key? c.url = some key ∧ (f.network.reply c).result = .ok text ∧
          (f.reply c).2.cache = f.cache.insert key text) := by
  by_cases hhit : c.settings.enabled = true ∧ f.Holds c.url
  · obtain ⟨henabled, key, text, hkey, htext⟩ := hhit
    obtain ⟨_, hcache, hnetwork⟩ := reply_of_holds henabled hkey htext
    exact ⟨hnetwork, .inl hcache⟩
  · obtain ⟨_, hnetwork, hcache⟩ := reply_of_not_holds fun h h' => hhit ⟨h, h'⟩
    exact ⟨hnetwork, hcache.imp_left And.left⟩

/-- What the cache says stays true. -/
theorem Mirrors.after (hf : f.Mirrors network calls) (hc : c ∈ calls) (hkeys : SeparateKeys calls) :
    (f.reply c).2.Mirrors network calls := by
  obtain ⟨hnetwork, hcache⟩ := cache_reply f c
  refine ⟨hnetwork.trans hf.network_eq, fun d hd key text hkey htext => ?_⟩
  rcases hcache with hcache | ⟨key', text', hkey', htext', hcache⟩
  · rw [hcache] at htext
    exact hf.result_eq d hd key text hkey htext
  · rw [hcache] at htext
    by_cases heq : key = key'
    · subst heq
      rw [Table.get?_insert_self] at htext
      rw [← Option.some.inj htext]
      rw [hf.network_eq] at htext'
      exact Network.result_congr (hkeys c hc d hd key hkey' hkey) htext'
    · rw [Table.get?_insert_of_ne _ _ heq] at htext
      exact hf.result_eq d hd key text hkey htext

/-- A text in the cache stays there. -/
theorem Holds.after (h : f.Holds url) (c : FetchCall) : (f.reply c).2.Holds url := by
  obtain ⟨key, text, hkey, htext⟩ := h
  rcases (cache_reply f c).2 with hcache | ⟨key', text', _, _, hcache⟩
  · exact ⟨key, text, hkey, hcache ▸ htext⟩
  · by_cases heq : key = key'
    · subst heq
      exact ⟨key, text', hkey, by rw [hcache, Table.get?_insert_self]⟩
    · exact ⟨key, text, hkey, by rw [hcache, Table.get?_insert_of_ne _ _ heq, htext]⟩

/-- A text that a call has fetched is in the cache afterwards. -/
theorem holds_of_keeps {text : String} (hkeeps : c.keeps = true)
    (h : (f.reply c).1.result = .ok text) : (f.reply c).2.Holds c.url := by
  by_cases hhit : c.settings.enabled = true ∧ f.Holds c.url
  · exact hhit.2.after c
  · obtain ⟨hreply, _, hcache⟩ := reply_of_not_holds fun h h' => hhit ⟨h, h'⟩
    rcases hcache with ⟨_, hnone⟩ | ⟨key, text', hkey, _, hcache⟩
    · rw [hreply] at h
      exact absurd h (hnone hkeeps text)
    · exact ⟨key, text', hkey, by rw [hcache, Table.get?_insert_self]⟩

/-! ## All calls of a session -/

/-- **Each call of a session answers what the network says**; if that is a failure, the network has
been asked. The induction is on the calls that are left, out of all calls of the session. -/
theorem Mirrors.session {all : List FetchCall} (hf : f.Mirrors network all)
    (hkeys : SeparateKeys all) (hcalls : ∀ c ∈ calls, c ∈ all) :
    (f.session calls).map (fun p => p.2.result) = calls.map (fun c => (network.reply c).result) ∧
      ∀ p ∈ f.session calls, ∀ e, p.2.result = .error e → p.2 = network.reply p.1 := by
  induction calls generalizing f with
  | nil => exact ⟨rfl, List.forall_mem_nil _⟩
  | cons c calls ih =>
    obtain ⟨hc, hcalls⟩ := List.forall_mem_cons.mp hcalls
    obtain ⟨hresult, hcases⟩ := hf.reply hc
    obtain ⟨hresults, hfailures⟩ := ih (hf.after hc hkeys) hcalls
    rw [Fetcher.session, List.map_cons, List.map_cons, hresult, hresults]
    refine ⟨rfl, fun p hp e he => ?_⟩
    rcases List.mem_cons.mp hp with rfl | hp
    · rcases hcases with ⟨_, ⟨text, htext⟩, _⟩ | ⟨_, hreply⟩
      · cases he.symm.trans htext
      · exact hreply
    · exact hfailures p hp e he

/-- What is in the cache is not asked in the rest of a session. -/
theorem asked_of_holds (h : f.Holds url) :
    ∀ p ∈ f.session calls, p.1.url = url → p.1.settings.enabled = true → p.2.asked = [] := by
  induction calls generalizing f with
  | nil => exact List.forall_mem_nil _
  | cons c calls ih =>
    intro p hp hurl henabled
    rcases List.mem_cons.mp hp with rfl | hp
    · obtain ⟨key, text, hkey, htext⟩ := hurl ▸ h
      rw [(reply_of_holds henabled hkey htext).1]
    · exact ih (h.after c) p hp hurl henabled

/-- After a call that has fetched a text and keeps it, no call for its address asks anything. -/
theorem pairwise_session (f : Fetcher) (calls : List FetchCall) :
    (f.session calls).Pairwise fun p q => p.1.url = q.1.url → p.1.keeps = true →
      q.1.settings.enabled = true → (∃ text, p.2.result = .ok text) → q.2.asked = [] := by
  induction calls generalizing f with
  | nil => exact .nil
  | cons c calls ih =>
    refine .cons (fun q hq hurl hkeeps henabled htext => ?_) (ih _)
    obtain ⟨text, htext⟩ := htext
    exact asked_of_holds (holds_of_keeps hkeeps htext) q hq hurl.symm henabled

end Fetcher

/-- **A session with a cache** answers each call as the same session without one. After a call that
has fetched a text and keeps it, no call for the same address asks anything. And a call that fails
has asked, for its own address first, unless that is no address. -/
theorem session_cached (network : Network) (calls : List FetchCall) (hkeys : SeparateKeys calls) :
    (session network calls).map (fun p => p.2.result) =
        (session network (calls.map FetchCall.uncached)).map (fun p => p.2.result) ∧
      ((session network calls).Pairwise fun p q => p.1.url = q.1.url → p.1.keeps = true →
        q.1.settings.enabled = true → (∃ text, p.2.result = .ok text) → q.2.asked = []) ∧
      ∀ p ∈ session network calls, (∃ e, p.2.result = .error e) →
        p.2.asked.head? = asked? p.1.url := by
  have hmirrors := Fetcher.mirrors_empty network
  obtain ⟨hresults, hfailures⟩ := (hmirrors calls).session hkeys fun c hc => hc
  have huncached : SeparateKeys (calls.map FetchCall.uncached) :=
    List.forall_mem_map.mpr fun c hc => List.forall_mem_map.mpr fun d hd => hkeys c hc d hd
  obtain ⟨hresults', _⟩ := (hmirrors _).session huncached fun c hc => hc
  refine ⟨?_, Fetcher.pairwise_session _ calls, fun p hp ⟨e, he⟩ => ?_⟩
  · rw [session, session, hresults, hresults', List.map_map]
    rfl
  · rw [hfailures p hp e he]
    exact Network.head_asked_reply network p.1

/-- A network with an empty text, and with an address that has nothing. -/
def shelf : Network :=
  [("http://docs.test/empty", .response {}), ("http://docs.test/gone", .response { status := 404 })]

/-- Two fetchers, the second one with a shorter lifetime, ask for the empty text. -/
def turns : List FetchCall :=
  [{ url := "http://docs.test/empty", name := some "Pet" },
    { url := "http://docs.test/gone", name := some "Pet" },
    { url := "http://docs.test/empty", settings := { ttlSeconds := 60 } }]

/-- The second fetcher finds the empty text in the cache. -/
theorem session_cached_turns :
    SeparateKeys turns ∧
      (session shelf turns).map (fun p => (p.2.result.toOption, p.2.asked)) =
        [(some "", ["http://docs.test/empty"]), (none, ["http://docs.test/gone"]), (some "", [])] ∧
      (session shelf turns).map (fun p => p.2.result) =
        (session shelf (turns.map FetchCall.uncached)).map (fun p => p.2.result) ∧
      ((session shelf turns).Pairwise fun p q => p.1.url = q.1.url → p.1.keeps = true →
        q.1.settings.enabled = true → (∃ text, p.2.result = .ok text) → q.2.asked = []) ∧
      ∀ p ∈ session shelf turns, (∃ e, p.2.result = .error e) →
        p.2.asked.head? = asked? p.1.url := by
  have hkeys : SeparateKeys turns := by
    refine separateKeys_of_pairwise ["http://docs.test/empty", "http://docs.test/gone"] ?_ ?_
    · decide +kernel
    · decide
  exact ⟨hkeys, by decide +kernel, session_cached shelf turns hkeys⟩

/-- A network in which one address leads to another. -/
def moved : Network :=
  [("http://docs.test/new", .response { text := "Kept elsewhere." }),
    ("http://docs.test/old", .response { status := 301, location := some "http://docs.test/new" })]

/-- **An address that has been fetched is asked again** where another one leads to it. -/
theorem session_moved :
    (session moved [{ url := "http://docs.test/new" }, { url := "http://docs.test/old" }]).map
        (fun p => (p.2.result.toOption, p.2.asked)) =
      [(some "Kept elsewhere.", ["http://docs.test/new"]),
        (some "Kept elsewhere.", ["http://docs.test/old", "http://docs.test/new"])] ∧
    ¬∀ (network : Network) (calls : List FetchCall), SeparateKeys calls →
      (∀ c ∈ calls, c.keeps = true) → (session network calls).Pairwise fun p q =>
        (∃ text, p.2.result = .ok text) → ∀ address ∈ asked? p.1.url, address ∉ q.2.asked := by
  have hsession : (session moved
      [{ url := "http://docs.test/new" }, { url := "http://docs.test/old" }]).map
        (fun p => (p.2.result.toOption, p.2.asked)) =
      [(some "Kept elsewhere.", ["http://docs.test/new"]),
        (some "Kept elsewhere.", ["http://docs.test/old", "http://docs.test/new"])] := by
    decide +kernel
  refine ⟨hsession, fun h => ?_⟩
  have hkeys :
      SeparateKeys [{ url := "http://docs.test/new" }, { url := "http://docs.test/old" }] := by
    refine separateKeys_of_pairwise ["http://docs.test/new", "http://docs.test/old"] ?_ ?_
    · decide +kernel
    · decide
  have hpair := h moved _ hkeys (by decide)
  -- the first call has fetched the address to which the second one is led
  obtain ⟨r, s, hreplies⟩ : ∃ r s,
      session moved [{ url := "http://docs.test/new" }, { url := "http://docs.test/old" }] =
        [({ url := "http://docs.test/new" }, r), ({ url := "http://docs.test/old" }, s)] :=
    ⟨_, _, rfl⟩
  rw [hreplies, List.pairwise_cons] at hpair
  rw [hreplies, List.map_cons, List.map_singleton, List.cons.injEq, Prod.mk.injEq,
    List.singleton_inj, Prod.mk.injEq] at hsession
  obtain ⟨⟨hfetched, _⟩, _, hasked⟩ := hsession
  have hok : ∃ text, r.result = .ok text := by
    cases hresult : r.result with
    | error e =>
      rw [hresult] at hfetched
      cases hfetched
    | ok text => exact ⟨text, rfl⟩
  have hnew : asked? "http://docs.test/new" = some "http://docs.test/new" := by decide +kernel
  refine hpair.1 _ List.mem_cons_self hok _ hnew ?_
  rw [hasked]
  decide

end TypedApi.Docs
