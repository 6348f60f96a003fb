import Authzoo.Lib.FormUrlencoded
import Authzoo.Oauth.Protocol

/-!
# Authzoo.Oauth.RedirectParams

The redirect that answers an authorization request: `build_redirect` of `protocol.rs`. What the
`url` crate writes is a parameter (`UrlTexts`), as what it parses is.

* `appendPairs_spec` : what the loop over the parameters leaves.
* `redirect_parameters` : the redirect is the given URI with exactly the given parameters.
* `response_confined` : the answer to an accepted request stays on a host of the client.
-/

namespace Authzoo.Oauth

namespace Url

def queryPairs (url : Url) : List (String × String) :=
  FormUrlencoded.parse (Ascii.bytes (url.query.getD ""))

/-- Where there was no query, an empty one stays. -/
def queryPairsMut (url : Url) : Url := { url with query := some (url.query.getD "") }

def appendPair (url : Url) (key value : String) : Url :=
  { url with query := some (FormUrlencoded.appendPair (url.query.getD "") key value) }

end Url

/-! ## Serialised URLs -/

def isSpecial (scheme : String) : Bool :=
  ["http", "https", "ws", "wss", "ftp", "file"].contains scheme

/-- The characters that the URL standard leaves alone in a query. -/
def isQueryChar (special : Bool) (c : Char) : Bool :=
  0x21 ≤ c.toNat && c.toNat ≤ 0x7e && c ≠ '"' && c ≠ '#' && c ≠ '<' && c ≠ '>' &&
    !(special && c = '\'')

def QueryText (scheme query : String) : Prop :=
  ∀ c ∈ query.toList, isQueryChar (isSpecial scheme) c = true

/-- What the crate says of a text beyond its parts: the serialisation up to the query, or why there
are none. -/
structure UrlTexts where
  base : String → String
  parseError : String → String

namespace UrlTexts

variable (T : UrlTexts)

/-- `Url::to_string`, for the URL of a text after its query has changed. -/
def serialize (text : String) (url : Url) : String :=
  T.base text ++ (url.query.map ("?" ++ ·)).getD "" ++ (url.fragment.map ("#" ++ ·)).getD ""

/-- The crate follows the URL standard: a parsed query has only characters that need no escape, and
with such a query the serialisation of a URL parses to it. -/
structure Standard (U : UrlCrate) : Prop where
  query : ∀ text url q, U.parse text = some url → url.query = some q → QueryText url.scheme q
  readBack : ∀ text url q, U.parse text = some url → QueryText url.scheme q →
    U.parse (T.serialize text { url with query := some q }) = some { url with query := some q }

end UrlTexts

/-! ## The redirect -/

/-- The loop over the parameters. -/
def appendPairs (redirect : Url) : List (String × Option String) → Url
  | [] => redirect
  | (_, none) :: params => appendPairs redirect params
  | (key, some value) :: params => appendPairs (redirect.appendPair key value) params

def buildRedirect (U : UrlCrate) (T : UrlTexts) (redirectUri : String)
    (params : List (String × Option String)) : Except ProtocolError String :=
  match U.parse redirectUri with
  | none => .error (.badRequest ("Invalid redirect URI: " ++ T.parseError redirectUri))
  | some url => .ok (T.serialize redirectUri (appendPairs url.queryPairsMut params))

/-- The parameters that have a value. -/
def given (params : List (String × Option String)) : List (String × String) :=
  params.filterMap fun param => param.2.map (param.1, ·)

/-- The values under a key, in order. -/
def valuesOf (key : String) (pairs : List (String × String)) : List String :=
  (pairs.filter (·.1 = key)).map (·.2)

/-! ## What is appended -/

theorem isWritten_query {c : Char} (h : FormUrlencoded.isWritten c = true) (special : Bool) :
    isQueryChar special c = true := by
  obtain ⟨hlow, hhigh⟩ := FormUrlencoded.isWritten_range h
  simp [isQueryChar, hlow, hhigh, Text.ne_of_test h (b := '"') (by decide),
    Text.ne_of_test h (b := '#') (by decide),
    Text.ne_of_test h (b := '<') (by decide),
    Text.ne_of_test h (b := '>') (by decide),
    Text.ne_of_test h (b := '\'') (by decide)]

theorem QueryText.appendPair {scheme query : String} (h : QueryText scheme query)
    (key value : String) : QueryText scheme (FormUrlencoded.appendPair query key value) := by
  intro c hc
  rw [FormUrlencoded.appendPair, String.toList_append, String.toList_append,
    String.toList_ofList] at hc
  simp only [List.mem_append, List.mem_cons] at hc
  obtain (hc | hc) | hc | rfl | hc := hc
  · exact h c hc
  · split at hc
    · simp at hc
    · obtain rfl := List.mem_singleton.mp hc
      cases isSpecial scheme <;> decide
  · exact isWritten_query (FormUrlencoded.mem_encode hc) _
  · cases isSpecial scheme <;> decide
  · exact isWritten_query (FormUrlencoded.mem_encode hc) _

theorem Url.appendPair_queryPairs (url : Url) (key value : String) :
    (url.appendPair key value).queryPairs = url.queryPairs ++ [(key, value)] :=
  FormUrlencoded.parse_appendPair _ key value

theorem Url.queryPairsMut_queryPairs (url : Url) : url.queryPairsMut.queryPairs = url.queryPairs :=
  rfl

/-- The loop changes the query and nothing else: it appends what is given, and leaves a query text
a query text. -/
theorem appendPairs_spec {url : Url} {q : String} (hquery : url.query = some q)
    (hq : QueryText url.scheme q) (params : List (String × Option String)) :
    ∃ q', QueryText url.scheme q' ∧ appendPairs url params = { url with query := some q' } ∧
      (appendPairs url params).queryPairs = url.queryPairs ++ given params := by
  induction params generalizing url q with
  | nil => exact ⟨q, hq, by rw [appendPairs, ← hquery], (List.append_nil _).symm⟩
  | cons param params ih =>
    obtain ⟨key, value⟩ := param
    cases value with
    | none => exact ih hquery hq
    | some value =>
      have hnext : QueryText (url.appendPair key value).scheme
          (FormUrlencoded.appendPair (url.query.getD "") key value) := by
        rw [hquery]
        exact hq.appendPair key value
      obtain ⟨q', hq', hsame, hpairs⟩ := ih rfl hnext
      refine ⟨q', hq', hsame, ?_⟩
      rw [appendPairs, hpairs, Url.appendPair_queryPairs, List.append_assoc]
      rfl

/-- What `build_redirect` returns for a URI that parses, as text and as a URL. -/
theorem buildRedirect_ok {U : UrlCrate} {T : UrlTexts} (hT : T.Standard U) {redirectUri : String}
    {url : Url} (hparse : U.parse redirectUri = some url) (params : List (String × Option String)) :
    ∃ text q, buildRedirect U T redirectUri params = .ok text ∧
      U.parse text = some { url with query := some q } ∧
      ({ url with query := some q } : Url).queryPairs = url.queryPairs ++ given params := by
  have hstart : QueryText url.queryPairsMut.scheme (url.query.getD "") := by
    cases hquery : url.query with
    | none =>
      intro c hc
      cases hc
    | some q => exact hT.query redirectUri url q hparse hquery
  obtain ⟨q, hq, hsame, hpairs⟩ := appendPairs_spec rfl hstart params
  refine ⟨_, q, by rw [buildRedirect, hparse], ?_, ?_⟩
  · rw [hsame]
    exact hT.readBack redirectUri url q hparse hq
  · rw [hsame, Url.queryPairsMut_queryPairs] at hpairs
    exact hpairs

/-- The answer to a request that was accepted for the client of a document can be written. It goes
over the scheme and to the host of a redirect that the document lists, with no user name and no
fragment. -/
theorem response_confined {U : UrlCrate} {T : UrlTexts} (hU : U.Whatwg) (hT : T.Standard U)
    {fromSlice : List UInt8 → Option Json} {id : String} {bytes : List UInt8}
    {request : AuthorizationRequest} {client : Client} {policy : AuthorizationPolicy}
    {p : PendingAuthorizationRequest} (hclient : parseDocument U fromSlice id bytes = .ok client)
    (h : validateAuthorizationRequest U request client policy = .ok p)
    (params : List (String × Option String)) :
    ∃ text redirect, buildRedirect U T p.redirectUri params = .ok text ∧
      U.parse text = some redirect ∧ redirect.fragment = none ∧ redirect.username = "" ∧
      redirect.password = none ∧ ∃ listed ∈ client.redirectUris, ∃ url, U.parse listed = some url ∧
        redirect.scheme = url.scheme ∧ redirect.hostPart = url.hostPart := by
  obtain ⟨hvetted, -⟩ := parseDocument_ok hclient
  obtain ⟨-, -, hallowed, -, -, -, -, -, huri, -⟩ := validateAuthorizationRequest_ok h
  rw [← huri] at hallowed
  obtain ⟨listed, hin, a, b, ha, hb, hscheme, hhost⟩ :=
    allowsRedirect_same_host hU hvetted.valid hallowed
  obtain ⟨url, hparse, -, hfragment, husername, hpassword, -⟩ :=
    (validRedirect_iff.mp (allowsRedirect_valid hvetted.valid hallowed)).parsed
  obtain rfl : a = url := Option.some.inj (ha.symm.trans hparse)
  obtain ⟨text, q, hbuild, hread, -⟩ := buildRedirect_ok hT ha params
  exact ⟨text, _, hbuild, hread, hfragment, husername, hpassword, listed, hin, b, hb, hscheme, hhost⟩

/-- **Exactly the given parameters.** A redirect URI that parses gets a redirect that parses, equal
to it in everything but the query, and whose pairs are those of the URI and then the parameters that
have a value. What is found under a key was there, or was given for that key. -/
theorem redirect_parameters {U : UrlCrate} {T : UrlTexts} (hT : T.Standard U) (redirectUri : String)
    (url : Url) (hparse : U.parse redirectUri = some url)
    (params : List (String × Option String)) :
    ∃ text redirect, buildRedirect U T redirectUri params = .ok text ∧
      U.parse text = some redirect ∧
      redirect.scheme = url.scheme ∧ redirect.username = url.username ∧
      redirect.password = url.password ∧ redirect.hostPart = url.hostPart ∧
      redirect.port = url.port ∧ redirect.path = url.path ∧ redirect.fragment = url.fragment ∧
      redirect.queryPairs = url.queryPairs ++ given params ∧
      ∀ key, valuesOf key redirect.queryPairs =
        valuesOf key url.queryPairs ++ valuesOf key (given params) := by
  obtain ⟨text, q, hbuild, hread, hpairs⟩ := buildRedirect_ok hT hparse params
  refine ⟨text, { url with query := some q }, hbuild, hread, rfl, rfl, rfl, rfl, rfl, rfl, rfl, hpairs,
    fun key => ?_⟩
  rw [hpairs, valuesOf, List.filter_append, List.map_append]
  rfl

/-! ## A run -/

def callbackUrl (query : Option String) : Url :=
  { httpsUrl "client.example" "/callback" with query := query }

/-- A crate that knows one redirect URI, with the queries that need no escape. -/
def callbackCrate : UrlCrate :=
  { UrlCrate.sample (fun _ => none) with
    parse := fun text =>
      match text.toList.dropPrefix? "https://client.example/callback".toList with
      | some [] => some (callbackUrl none)
      | some ('?' :: query) =>
        if query.all (isQueryChar true) then some (callbackUrl (some (.ofList query))) else none
      | _ => none }

def callbackTexts : UrlTexts := ⟨fun _ => "https://client.example/callback", fun _ => ""⟩

theorem callbackCrate_some {text : String} {url : Url} (h : callbackCrate.parse text = some url) :
    ∃ query, url = callbackUrl query ∧ ∀ q, query = some q → QueryText "https" q := by
  simp only [callbackCrate] at h
  split at h
  · exact ⟨none, (Option.some.inj h).symm, nofun⟩
  · rename_i query hdrop
    obtain ⟨hall, hurl⟩ := Option.ite_none_right_eq_some.mp h
    refine ⟨some (.ofList query), (Option.some.inj hurl).symm, fun q hq c hc => ?_⟩
    obtain rfl := Option.some.inj hq
    rw [String.toList_ofList] at hc
    exact List.all_eq_true.mp hall c hc
  · cases h

theorem callbackCrate_standard : callbackTexts.Standard callbackCrate where
  query := by
    intro text url q h hquery
    obtain ⟨query, rfl, hall⟩ := callbackCrate_some h
    exact hall q hquery
  readBack := by
    intro text url q h hq
    obtain ⟨query, rfl, -⟩ := callbackCrate_some h
    have hdrop : (callbackTexts.serialize text { callbackUrl query with query := some q }).toList =
        "https://client.example/callback".toList ++ '?' :: q.toList := by
      simp [UrlTexts.serialize, callbackTexts, callbackUrl, httpsUrl]
    have hall : q.toList.all (isQueryChar true) = true := List.all_eq_true.mpr hq
    simp only [callbackCrate, Text.dropPrefix_eq_some.mpr hdrop, hall, if_true,
      String.ofList_toList]
    rfl

/-- The parameters of the answer keep their characters, and the one without a value is left out. -/
theorem redirect_parameters_callback :
    ∃ text redirect, buildRedirect callbackCrate callbackTexts
        "https://client.example/callback?existing=1"
        [("code", some "a&b"), ("state", some "#value"), ("nonce", none)] = .ok text ∧
      callbackCrate.parse text = some redirect ∧
      redirect.queryPairs = [("existing", "1"), ("code", "a&b"), ("state", "#value")] := by
  obtain ⟨text, redirect, hbuild, hparse, -, -, -, -, -, -, -, hpairs, -⟩ :=
    redirect_parameters callbackCrate_standard "https://client.example/callback?existing=1"
      (callbackUrl (some "existing=1")) (by decide)
      [("code", some "a&b"), ("state", some "#value"), ("nonce", none)]
  have hexisting : (callbackUrl (some "existing=1")).queryPairs = [("existing", "1")] := by decide
  exact ⟨text, redirect, hbuild, hparse, hpairs.trans (by rw [hexisting]; rfl)⟩

end Authzoo.Oauth
