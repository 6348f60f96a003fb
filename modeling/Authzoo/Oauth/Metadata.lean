import Authzoo.KeyCache
import Authzoo.Oauth.Address
import Authzoo.Oauth.Document

/-!
# Authzoo.Oauth.Metadata

`ClientMetadataService::resolve_metadata` of `client_metadata.rs`: the look-up in the cache, the
guarded request and the insertion, each as its own function, so that other calls can run between
them. The network is a parameter.

`request_guarded` is the guard against requests into the internal network.
-/

namespace Authzoo.Oauth

def maxDocumentBytes : Nat := 64 * 1024

def maxCacheEntries : Nat := 256

/-! ## The network -/

/-- What `lookup_host` under its timeout ends in. -/
inductive Lookup where
  | timeout
  | failed
  | found (addresses : List SocketAddr)

/-- A request with the settings of the client that sends it. -/
structure HttpRequest where
  url : Url
  httpsOnly : Bool
  proxies : Bool
  redirects : Bool
  resolvedHost : String
  addresses : List SocketAddr
  accept : String
  deriving DecidableEq

inductive Body where
  | done
  | failed
  | chunk (bytes : List UInt8) (rest : Body)

structure Response where
  status : Nat
  contentLength : Option Nat
  headers : List (String × List UInt8)
  body : Body

inductive Sent where
  | timeout
  | notConnected
  | failed
  | response (response : Response)

structure Network where
  lookupHost : String → Nat → Lookup
  clientBuilds : String → List SocketAddr → Bool
  send : HttpRequest → Sent

/-! ## Headers -/

/-- A header value as a text: it is one if all its bytes are visible ASCII, blanks or tabs. -/
def headerText (value : List UInt8) : Option String :=
  if value.all fun b => (32 ≤ b && b < 127) || b = 9 then
    some (.ofList (value.map fun b => .ofNat b.toNat))
  else none

/-- `str::parse::<u64>`. -/
def parseU64 (s : String) : Option Nat :=
  let digits := match s.toList with
    | '+' :: digits => digits
    | digits => digits
  if digits ≠ [] ∧ digits.all Char.isDigit ∧ Text.decimal digits < 2 ^ 64 then
    some (Text.decimal digits)
  else none

def toAsciiLowercase (s : String) : String := .ofList (s.toList.map Char.toLower)

def maxAge (directive : String) : Option Nat :=
  match (toAsciiLowercase directive).toList.dropPrefix? "max-age=".toList with
  | none => none
  | some number => parseU64 (Text.trimMatches (· = '"') (.ofList number))

def cacheTtl (header : String) : Duration :=
  let directives := (header.toList.splitOn ',').map fun d => Text.trim (.ofList d)
  if directives.any fun d =>
      toAsciiLowercase d = "no-store" || toAsciiLowercase d = "no-cache" then 0
  else .fromSecs (min ((directives.findSome? maxAge).getD 300) 300)

namespace Response

def cacheControl (r : Response) : String :=
  ((r.headers.lookup "cache-control").bind headerText).getD ""

def age (r : Response) : Nat :=
  (((r.headers.lookup "age").bind headerText).bind parseU64).getD 0

def ttl (r : Response) : Duration := cacheTtl r.cacheControl - .fromSecs r.age

end Response

/-! ## The request -/

namespace Checks

def prepare (net : Network) (url : Url) : Except Reason HttpRequest :=
  match url.hostStr with
  | none => .error .missingMetadataHost
  | some host =>
    match net.lookupHost (Text.trimMatches (fun c => c = '[' || c = ']') host)
        (url.portOrKnownDefault.getD 443) with
    | .timeout => .error .dnsLookupTimeout
    | .failed => .error .dnsLookupFailed
    | .found addresses =>
      if addresses = [] then .error .dnsLookupReturnedNoAddresses
      else if addresses.any fun a => !publicIp a.ip then .error .metadataAddressIsNotPublic
      else if !net.clientBuilds host addresses then .error .metadataHttpClientConfigurationFailed
      else
        .ok
          { url, httpsOnly := true, proxies := false, redirects := false, resolvedHost := host
            addresses, accept := "application/json" }

def received : Sent → Except Reason Response
  | .timeout => .error .metadataRequestTimeout
  | .notConnected => .error .metadataConnectionFailed
  | .failed => .error .metadataRequestFailed
  | .response r => .ok r

/-- One iteration of the loop over the chunks, which stops before the limit is passed. -/
def readChunk (bytes chunk : List UInt8) : Except Reason (List UInt8) :=
  if bytes.length + chunk.length > maxDocumentBytes then .error .metadataResponseTooLarge
  else .ok (bytes ++ chunk)

def readBody (bytes : List UInt8) : Body → Except Reason (List UInt8)
  | .done => .ok bytes
  | .failed => .error .metadataBodyReadFailed
  | .chunk chunk rest =>
    match readChunk bytes chunk with
    | .error reason => .error reason
    | .ok bytes => readBody bytes rest

def bytes (r : Response) : Except Reason (List UInt8) :=
  if ¬ (200 ≤ r.status ∧ r.status < 300) then .error (.metadataHttpStatus r.status)
  else if r.contentLength.any (· > maxDocumentBytes) then .error .metadataResponseTooLarge
  else readBody [] r.body

end Checks

/-- The part of `resolve_metadata` up to the request: resolve once, and pin what was resolved. -/
def prepare (net : Network) (url : Url) : Except MetadataError HttpRequest :=
  (Checks.prepare net url).mapError invalid

def Sent.received (sent : Sent) : Except MetadataError Response :=
  (Checks.received sent).mapError invalid

def readBody (bytes : List UInt8) (body : Body) : Except MetadataError (List UInt8) :=
  (Checks.readBody bytes body).mapError invalid

def Response.bytes (r : Response) : Except MetadataError (List UInt8) :=
  (Checks.bytes r).mapError invalid

section

variable (U : UrlCrate) (fromSlice : List UInt8 → Option Json)

def Response.client (r : Response) (id : String) : Except MetadataError Client :=
  match r.bytes with
  | .error e => .error e
  | .ok bytes => parseDocument U fromSlice id bytes

/-! ## The cache -/

/-- Clients by identifier, each with its expiry. -/
abbrev MetadataCache := HashMap String (Instant × Client)

def retain {K V : Type} (keep : K → V → Bool) (entries : HashMap K V) : HashMap K V :=
  ⟨entries.entries.filter fun e => keep e.1 e.2, entries.nodupKeys.sublist List.filter_sublist⟩

namespace MetadataCache

def fresh (cache : MetadataCache) (id : String) (now : Instant) : Option Client :=
  match cache.lookup id with
  | some (expiry, client) => if expiry > now then some client else none
  | none => none

/-- The second critical section. The clock is read for every entry that `retain` visits, and once
more at the end. -/
def store (cache : MetadataCache) (id : String) (client : Client) (ttl : Duration)
    (reading : String → Instant) (now : Instant) : MetadataCache :=
  let retained := retain (fun id entry => entry.1 > reading id) cache
  let room := if retained.keys.length ≥ maxCacheEntries then ∅ else retained
  room.insert id (now + ttl, client)

end MetadataCache

/-- The clock as one call reads it. -/
structure Readings where
  lookup : Instant
  retain : String → Instant
  insert : Instant

/-- What a call returns, the cache it leaves and the request it sent. -/
structure Outcome where
  result : Except MetadataError Client
  cache : MetadataCache
  sent : Option HttpRequest

def resolveMetadata (net : Network) (clock : Readings) (cache : MetadataCache) (id : String) :
    Outcome :=
  match metadataUrl U id with
  | .error e => ⟨.error e, cache, none⟩
  | .ok url =>
    match cache.fresh id clock.lookup with
    | some client => ⟨.ok client, cache, none⟩
    | none =>
      match prepare net url with
      | .error e => ⟨.error e, cache, none⟩
      | .ok request =>
        match (net.send request).received with
        | .error e => ⟨.error e, cache, some request⟩
        | .ok response =>
          match response.client U fromSlice id with
          | .error e => ⟨.error e, cache, some request⟩
          | .ok client =>
            if response.ttl = 0 then ⟨.ok client, cache, some request⟩
            else
              ⟨.ok client, cache.store id client response.ttl clock.retain clock.insert,
                some request⟩

end

@[simp] theorem Sent.received_response (r : Response) : (Sent.response r).received = .ok r := rfl

/-! ## Lifetimes and entries -/

theorem cacheTtl_le (header : String) : cacheTtl header ≤ .fromSecs 300 := by
  simp only [cacheTtl]
  split
  · exact Nat.zero_le _
  · exact Nat.mul_le_mul_right _ (Nat.min_le_right _ _)

theorem Response.ttl_le (r : Response) : r.ttl ≤ .fromSecs 300 - .fromSecs r.age :=
  Nat.sub_le_sub_right (cacheTtl_le r.cacheControl) _

theorem Response.client_ok {U : UrlCrate} {fromSlice : List UInt8 → Option Json} {r : Response}
    {id : String} {client : Client} :
    r.client U fromSlice id = .ok client ↔
      ∃ bytes, r.bytes = .ok bytes ∧ parseDocument U fromSlice id bytes = .ok client := by
  unfold Response.client
  cases r.bytes with
  | error e => simp
  | ok bytes => simp

theorem Checks.readChunk_ok {bytes chunk read : List UInt8} :
    Checks.readChunk bytes chunk = .ok read ↔
      bytes.length + chunk.length ≤ maxDocumentBytes ∧ read = bytes ++ chunk := by
  rw [readChunk, Outcome.guard_eq_ok, not_lt, Except.ok.injEq, eq_comm]

theorem readBody_length {body : Body} {read bytes : List UInt8} (h : readBody read body = .ok bytes)
    (hread : read.length ≤ maxDocumentBytes) : bytes.length ≤ maxDocumentBytes := by
  rw [readBody, Outcome.mapError_eq_ok] at h
  induction body generalizing read with
  | done =>
    obtain rfl := Except.ok.inj h
    exact hread
  | failed => cases h
  | chunk chunk rest ih =>
    rw [Checks.readBody] at h
    split at h
    · cases h
    · rename_i next hnext
      obtain ⟨hfits, rfl⟩ := Checks.readChunk_ok.mp hnext
      exact ih h (by rwa [List.length_append])

/-- No document is longer than the limit, whatever its `Content-Length` said. -/
theorem Response.bytes_length {r : Response} {bytes : List UInt8} (h : r.bytes = .ok bytes) :
    bytes.length ≤ maxDocumentBytes := by
  simp only [Response.bytes, Outcome.mapError_eq_ok, Checks.bytes, Outcome.guard_eq_ok] at h
  obtain ⟨-, -, hread⟩ := h
  exact readBody_length (Outcome.mapError_eq_ok.mpr hread) (Nat.zero_le _)

theorem lookup_retain {K V : Type} [DecidableEq K] {keep : K → V → Bool} {entries : HashMap K V}
    {k : K} {v : V} (h : (retain keep entries).lookup k = some v) :
    entries.lookup k = some v ∧ keep k v = true := by
  have hmem := AList.mem_lookup_iff.mp h
  have hfilter := List.mem_filter.mp hmem
  exact ⟨AList.mem_lookup_iff.mpr hfilter.1, hfilter.2⟩

namespace MetadataCache

theorem fresh_some {cache : MetadataCache} {id : String} {now : Instant} {client : Client}
    (h : cache.fresh id now = some client) :
    ∃ expiry, cache.lookup id = some (expiry, client) ∧ now < expiry := by
  unfold fresh at h
  split at h
  · rename_i expiry found hlookup
    split at h
    · rename_i hlive
      obtain rfl := Option.some.inj h
      exact ⟨expiry, hlookup, hlive⟩
    · cases h
  · cases h

/-- Storing keeps within the limit whatever was there before. -/
theorem store_length (cache : MetadataCache) (id : String) (client : Client) (ttl : Duration)
    (reading : String → Instant) (now : Instant) :
    (cache.store id client ttl reading now).keys.length ≤ maxCacheEntries := by
  simp only [store, AList.keys_insert, List.length_cons]
  split
  · exact (by decide : 1 ≤ maxCacheEntries)
  · rename_i hroom
    have herase := List.length_erase_le (a := id)
      (l := (retain (fun id entry => decide (entry.1 > reading id)) cache).keys)
    omega

theorem store_own {cache : MetadataCache} {id : String} {client : Client} {ttl : Duration}
    {reading : String → Instant} {now : Instant} :
    (cache.store id client ttl reading now).lookup id = some (now + ttl, client) :=
  AList.lookup_insert _

/-- An entry after storing is the stored one, or was there and has not expired. -/
theorem store_lookup {cache : MetadataCache} {id : String} {client : Client} {ttl : Duration}
    {reading : String → Instant} {now : Instant} {key : String} {entry : Instant × Client}
    (h : (cache.store id client ttl reading now).lookup key = some entry) :
    key = id ∧ entry = (now + ttl, client) ∨
      cache.lookup key = some entry ∧ reading key < entry.1 := by
  simp only [store] at h
  by_cases hkey : key = id
  · subst hkey
    rw [AList.lookup_insert] at h
    exact Or.inl ⟨rfl, (Option.some.inj h).symm⟩
  · rw [AList.lookup_insert_ne hkey] at h
    split at h
    · cases h
    · obtain ⟨hlookup, hkeep⟩ := lookup_retain h
      exact Or.inr ⟨hlookup, by simpa using hkeep⟩

theorem store_fresh {cache : MetadataCache} {id : String} {client : Client} {ttl : Duration}
    {reading : String → Instant} {now later : Instant} (hlive : later < now + ttl) :
    (cache.store id client ttl reading now).fresh id later = some client := by
  simp only [fresh, store, AList.lookup_insert, gt_iff_lt, hlive, if_true]

end MetadataCache

/-! ## The guard -/

/-- Everything that holds of a request. -/
structure Guarded (net : Network) (url : Url) (request : HttpRequest) : Prop where
  target : request.url = url
  host : url.hostStr = some request.resolvedHost
  resolved : net.lookupHost (Text.trimMatches (fun c => c = '[' || c = ']') request.resolvedHost)
    (url.portOrKnownDefault.getD 443) = .found request.addresses
  nonempty : request.addresses ≠ []
  isPublic : ∀ a ∈ request.addresses, publicIp a.ip = true
  direct : request.httpsOnly = true ∧ request.proxies = false ∧ request.redirects = false

theorem prepare_ok {net : Network} {url : Url} {request : HttpRequest}
    (h : prepare net url = .ok request) : Guarded net url request := by
  rw [prepare, Outcome.mapError_eq_ok, Checks.prepare] at h
  split at h
  · cases h
  · rename_i host hhost
    split at h
    · cases h
    · cases h
    · rename_i addresses hlookup
      simp only [Outcome.guard_eq_ok] at h
      obtain ⟨hne, hpublic, -, hok⟩ := h
      obtain rfl := Except.ok.inj hok
      exact ⟨rfl, hhost, hlookup, hne, by simpa using hpublic, rfl, rfl, rfl⟩

/-- A request is sent for a metadata URL that is not in the cache. -/
theorem resolveMetadata_sent {U : UrlCrate} {fromSlice : List UInt8 → Option Json} {net : Network}
    {clock : Readings} {cache : MetadataCache} {id : String} {request : HttpRequest} :
    (resolveMetadata U fromSlice net clock cache id).sent = some request ↔
      ∃ url, metadataUrl U id = .ok url ∧ cache.fresh id clock.lookup = none ∧
        prepare net url = .ok request := by
  cases hurl : metadataUrl U id with
  | error e => simp [resolveMetadata, hurl]
  | ok url =>
    cases hfresh : cache.fresh id clock.lookup with
    | some client => simp [resolveMetadata, hurl, hfresh]
    | none =>
      cases hprepare : prepare net url with
      | error e => simp [resolveMetadata, hurl, hfresh, hprepare]
      | ok sent =>
        -- from here on every branch has sent its request
        have hsent : (resolveMetadata U fromSlice net clock cache id).sent = some sent := by
          simp only [resolveMetadata, hurl, hfresh, hprepare]
          split
          · rfl
          · split
            · rfl
            · split <;> rfl
        simp [hsent, hprepare]

/-- **No requests inside.** A request goes out only for an accepted metadata URL whose host
resolves to at least one address and to no special-purpose one, and it is pinned to exactly these
addresses. -/
theorem request_guarded {U : UrlCrate} {fromSlice : List UInt8 → Option Json} {net : Network}
    {clock : Readings} {cache : MetadataCache} {id : String} {request : HttpRequest}
    (h : (resolveMetadata U fromSlice net clock cache id).sent = some request) :
    ∃ url host addresses, U.parse id = some url ∧ IsMetadataUrl url ∧ url.hostStr = some host ∧
      net.lookupHost (Text.trimMatches (fun c => c = '[' || c = ']') host)
        (url.portOrKnownDefault.getD 443) = .found addresses ∧
      addresses ≠ [] ∧ (∀ a ∈ addresses, a.ip.OutsideSpecial) ∧
      request.url = url ∧ request.resolvedHost = host ∧ request.addresses = addresses := by
  obtain ⟨url, hurl, -, hprepare⟩ := resolveMetadata_sent.mp h
  obtain ⟨hparse, hmetadata⟩ := metadataUrl_ok_iff.mp hurl
  have hguard := prepare_ok hprepare
  exact ⟨url, request.resolvedHost, request.addresses, hparse, hmetadata, hguard.host,
    hguard.resolved, hguard.nonempty, fun a ha => publicIp_outside (hguard.isPublic a ha),
    hguard.target, rfl, rfl⟩

def exampleAddress : SocketAddr := ⟨.v4 ⟨93, 184, 216, 34⟩, 443⟩

/-- A network with one host and one document. -/
def exampleNetwork : Network where
  lookupHost host port :=
    if host = "client.example" ∧ port = 443 then .found [exampleAddress] else .failed
  clientBuilds _ _ := true
  send _ := .response ⟨200, none, [], .chunk exampleBytes .done⟩

def exampleSent : HttpRequest :=
  { url := httpsUrl "client.example" "/metadata", httpsOnly := true, proxies := false
    redirects := false, resolvedHost := "client.example", addresses := [exampleAddress]
    accept := "application/json" }

theorem request_guarded_example : exampleAddress.ip.OutsideSpecial := by
  have hsent : (resolveMetadata exampleCrate exampleSlice exampleNetwork ⟨0, fun _ => 0, 0⟩ ∅
      exampleId).sent = some exampleSent :=
    resolveMetadata_sent.mpr ⟨httpsUrl "client.example" "/metadata", by decide, rfl, by decide⟩
  obtain ⟨url, host, addresses, -, -, -, -, -, houtside, -, -, haddresses⟩ := request_guarded hsent
  exact houtside exampleAddress (haddresses ▸ List.mem_singleton_self _)

end Authzoo.Oauth
