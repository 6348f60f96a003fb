import Authzoo.Lib.Outcome
import Authzoo.Oauth.Redirect
import Authzoo.Tree

/-!
# Authzoo.Oauth.Document

Client metadata documents (`client_metadata.rs`): the derived decoder of `Document`, the reasons for
which a client is refused with their texts, `metadata_url` and `parse_document`.

Reading bytes as JSON is `serde_json`'s part and stays a parameter; what the derived decoder makes of
the tree is written out. `Vetted` is what an accepted document says about its client.
-/

namespace Authzoo.Oauth

structure MetadataError where
  code : String
  detail : String
  deriving DecidableEq

/-! ## Reasons -/

/-- The `reason` texts that `invalid` is called with. -/
inductive Reason where
  | invalidMetadataUrl
  | missingMetadataHost
  | dnsLookupTimeout
  | dnsLookupFailed
  | dnsLookupReturnedNoAddresses
  | metadataAddressIsNotPublic
  | metadataHttpClientConfigurationFailed
  | metadataRequestTimeout
  | metadataConnectionFailed
  | metadataRequestFailed
  | metadataHttpStatus (status : Nat)
  | metadataResponseTooLarge
  | metadataBodyReadFailed
  | invalidMetadataJsonOrFieldType
  | metadataClientIdMismatch
  | invalidClientName
  | invalidRedirectUriCount
  | invalidRedirectUri
  | publicClientAuthenticationNotSupported
  | authorizationCodeGrantNotSupported
  | unsupportedResponseTypes
  deriving DecidableEq

def Reason.detail : Reason → String
  | .invalidMetadataUrl | .missingMetadataHost =>
    "The application's client ID must be a valid HTTPS client metadata URL, including a path and" ++
      " without credentials, query parameters, or a fragment."
  | .dnsLookupTimeout => "Looking up the application's client metadata host timed out."
  | .dnsLookupFailed | .dnsLookupReturnedNoAddresses =>
    "The application's client metadata host could not be found in DNS."
  | .metadataAddressIsNotPublic =>
    "The application's client metadata URL resolves to a private or reserved network address." ++
      " Client metadata must be hosted on a public HTTPS address."
  | .metadataHttpClientConfigurationFailed =>
    "The identity provider could not prepare a secure connection to the application's client" ++
      " metadata endpoint."
  | .metadataRequestTimeout => "Fetching the application's client metadata timed out."
  | .metadataConnectionFailed =>
    "The identity provider could not establish a secure connection to the application's client" ++
      " metadata endpoint."
  | .metadataRequestFailed | .metadataBodyReadFailed =>
    "The identity provider could not download the application's client metadata."
  | .metadataHttpStatus status =>
    "The application's client metadata endpoint returned HTTP " ++ toString status ++
      " instead of a successful response. Metadata must be served directly without redirects."
  | .metadataResponseTooLarge =>
    "The application's client metadata document exceeds the maximum size of 64 KiB."
  | .invalidMetadataJsonOrFieldType =>
    "The application's client metadata is not valid JSON, is missing required fields, or contains" ++
      " unsupported field types or values."
  | .metadataClientIdMismatch =>
    "The client_id in the application's metadata document does not exactly match the URL used to" ++
      " fetch that document."
  | .invalidClientName =>
    "The application's client metadata must include a non-empty client_name of at most 256 bytes."
  | .invalidRedirectUriCount =>
    "The application's client metadata must include between 1 and 32 callback URLs in" ++
      " redirect_uris."
  | .invalidRedirectUri =>
    "The application's client metadata contains an invalid callback URL. Callbacks must use HTTPS" ++
      " or HTTP on a loopback host, without credentials, fragments, or wildcards."
  | .publicClientAuthenticationNotSupported =>
    "The application's client metadata does not support token authentication method 'none', which" ++
      " is required by this identity provider's CIMD implementation."
  | .authorizationCodeGrantNotSupported =>
    "The application's client metadata does not list the required 'authorization_code' grant type."
  | .unsupportedResponseTypes =>
    "The application's client metadata declares unsupported response types. This identity provider" ++
      " requires response_types to contain only 'code'."

def invalid (reason : Reason) : MetadataError := ⟨"invalid_client", reason.detail⟩

/-! ## Decoding -/

/-- The lower-case name of a variant, as a text or as the only member with a null value. -/
def ApplicationType.ofJson : Json → Option ApplicationType
  | .str name | .obj [(name, .null)] =>
    if name = "web" then some .web else if name = "native" then some .native else none
  | _ => none

structure Document where
  applicationType : ApplicationType
  clientId : String
  clientName : String
  redirectUris : List String
  tokenEndpointAuthMethod : Option String
  tokenEndpointAuthMethodsSupported : Option (List String)
  grantTypes : Option (List String)
  responseTypes : Option (List String)

namespace Document

def fields : List String :=
  ["application_type", "client_id", "client_name", "redirect_uris", "token_endpoint_auth_method",
    "token_endpoint_auth_methods_supported", "grant_types", "response_types"]

/-- The fields in declaration order, where only `application_type` has a default. -/
def decode (applicationType clientId clientName redirectUris authMethod authMethods grantTypes
    responseTypes : Option Json) : Option Document :=
  match applicationType.elim (some ApplicationType.web) ApplicationType.ofJson,
    clientId.bind Json.asStr, clientName.bind Json.asStr, redirectUris.bind (Json.list Json.asStr),
    Json.nullable Json.asStr authMethod, Json.nullable (Json.list Json.asStr) authMethods,
    Json.nullable (Json.list Json.asStr) grantTypes,
    Json.nullable (Json.list Json.asStr) responseTypes with
  | some applicationType, some clientId, some clientName, some redirectUris, some authMethod,
    some authMethods, some grantTypes, some responseTypes =>
    some ⟨applicationType, clientId, clientName, redirectUris, authMethod, authMethods, grantTypes,
      responseTypes⟩
  | _, _, _, _, _, _, _, _ => none

/-- The derived decoder also takes the fields as an array, which must then have all of them. -/
def ofJson (json : Json) : Option Document :=
  match json with
  | .obj _ =>
    if json.unrepeated fields then
      decode (json.get? "application_type") (json.get? "client_id") (json.get? "client_name")
        (json.get? "redirect_uris") (json.get? "token_endpoint_auth_method")
        (json.get? "token_endpoint_auth_methods_supported") (json.get? "grant_types")
        (json.get? "response_types")
    else none
  | .arr [applicationType, clientId, clientName, redirectUris, authMethod, authMethods, grantTypes,
      responseTypes] =>
    decode applicationType clientId clientName redirectUris authMethod authMethods grantTypes
      responseTypes
  | _ => none

end Document

/-! ## Checking -/

def Document.supportsNone (doc : Document) : Bool :=
  match doc.tokenEndpointAuthMethodsSupported with
  | some methods => methods.any (· = "none")
  | none => doc.tokenEndpointAuthMethod.getD "none" = "none"

section

variable (U : UrlCrate)

/-! The checks end with the reason that `invalid` is called with. -/

namespace Checks

def metadataUrl (id : String) : Except Reason Url :=
  match U.parse id with
  | none => .error .invalidMetadataUrl
  | some url =>
    if url.scheme ≠ "https" ∨ url.hostStr = none ∨ url.path = "/" ∨ url.fragment ≠ none ∨
        url.query ≠ none ∨ url.username ≠ "" ∨ url.password ≠ none then
      .error .invalidMetadataUrl
    else .ok url

/-- What `parse_document` checks before it comes to the grants. -/
def registration (id : String) (doc : Document) : Except Reason Unit :=
  if doc.clientId ≠ id then .error .metadataClientIdMismatch
  else if Text.trim doc.clientName = "" ∨ doc.clientName.utf8ByteSize > 256 then
    .error .invalidClientName
  else if doc.redirectUris = [] ∨ doc.redirectUris.length > 32 then .error .invalidRedirectUriCount
  else if doc.redirectUris.any (!validRedirect U ·) then .error .invalidRedirectUri
  else if !doc.supportsNone then .error .publicClientAuthenticationNotSupported
  else .ok ()

def grants (doc : Document) : Except Reason Unit :=
  if doc.grantTypes.any (!·.any (· = "authorization_code")) then
    .error .authorizationCodeGrantNotSupported
  else .ok ()

def client (doc : Document) : Except Reason Client :=
  if doc.responseTypes.any (· ≠ ["code"]) then .error .unsupportedResponseTypes
  else
    .ok
      { clientId := doc.clientId, name := doc.clientName, redirectUris := doc.redirectUris
        cimd := true, applicationType := doc.applicationType }

/-- `parse_document` after decoding. -/
def document (id : String) (doc : Document) : Except Reason Client := do
  registration U id doc
  grants doc
  client doc

def decode (fromSlice : List UInt8 → Option Json) (bytes : List UInt8) : Except Reason Document :=
  match (fromSlice bytes).bind Document.ofJson with
  | none => .error .invalidMetadataJsonOrFieldType
  | some doc => .ok doc

end Checks

def metadataUrl (id : String) : Except MetadataError Url := (Checks.metadataUrl U id).mapError invalid

def Document.check (id : String) (doc : Document) : Except MetadataError Client :=
  (Checks.document U id doc).mapError invalid

def parseDocument (fromSlice : List UInt8 → Option Json) (id : String) (bytes : List UInt8) :
    Except MetadataError Client := do
  let doc ← (Checks.decode fromSlice bytes).mapError invalid
  doc.check U id

end

/-! ## What an accepted document says -/

/-- A client as `parse_document` returns it for `id`. -/
structure Vetted (U : UrlCrate) (id : String) (client : Client) : Prop where
  clientId : client.clientId = id
  cimd : client.cimd = true
  named : Text.trim client.name ≠ ""
  nameBytes : client.name.utf8ByteSize ≤ 256
  listed : 1 ≤ client.redirectUris.length
  listedAtMost : client.redirectUris.length ≤ 32
  valid : ∀ uri ∈ client.redirectUris, validRedirect U uri = true

theorem Document.check_ok_iff {U : UrlCrate} {id : String} {doc : Document} {client : Client} :
    doc.check U id = .ok client ↔ Checks.registration U id doc = .ok () ∧
      Checks.grants doc = .ok () ∧ Checks.client doc = .ok client := by
  simp only [check, Outcome.mapError_eq_ok, Checks.document, Outcome.bind_eq_ok]
  constructor
  · rintro ⟨_, hregistration, _, hgrants, hclient⟩
    exact ⟨hregistration, hgrants, hclient⟩
  · rintro ⟨hregistration, hgrants, hclient⟩
    exact ⟨(), hregistration, (), hgrants, hclient⟩

theorem Document.check_ok {U : UrlCrate} {id : String} {doc : Document} {client : Client}
    (h : doc.check U id = .ok client) : Vetted U id client ∧
      client.redirectUris = doc.redirectUris := by
  simp only [Document.check_ok_iff, Checks.registration, Checks.client, Outcome.guard_eq_ok] at h
  obtain ⟨⟨hid, hname, hcount, hvalid, -⟩, -, -, hok⟩ := h
  obtain rfl := Except.ok.inj hok
  simp only [not_or, not_lt] at hname hcount
  refine ⟨⟨by simpa using hid, rfl, hname.1, hname.2, ?_, hcount.2, ?_⟩, rfl⟩
  · exact List.length_pos_iff.mpr hcount.1
  · simpa using hvalid

theorem Checks.decode_ok {fromSlice : List UInt8 → Option Json} {bytes : List UInt8}
    {doc : Document} : Checks.decode fromSlice bytes = .ok doc ↔
      (fromSlice bytes).bind Document.ofJson = some doc := by
  unfold Checks.decode
  cases (fromSlice bytes).bind Document.ofJson <;> simp

theorem parseDocument_ok_iff {U : UrlCrate} {fromSlice : List UInt8 → Option Json} {id : String}
    {bytes : List UInt8} {client : Client} : parseDocument U fromSlice id bytes = .ok client ↔
      ∃ doc, (fromSlice bytes).bind Document.ofJson = some doc ∧ doc.check U id = .ok client := by
  simp only [parseDocument, Outcome.bind_eq_ok, Outcome.mapError_eq_ok, Checks.decode_ok]

theorem parseDocument_ok {U : UrlCrate} {fromSlice : List UInt8 → Option Json} {id : String}
    {bytes : List UInt8} {client : Client} (h : parseDocument U fromSlice id bytes = .ok client) :
    Vetted U id client ∧ ∃ doc, (fromSlice bytes).bind Document.ofJson = some doc ∧
      client.redirectUris = doc.redirectUris := by
  obtain ⟨doc, hdoc, hcheck⟩ := parseDocument_ok_iff.mp h
  obtain ⟨hvetted, huris⟩ := Document.check_ok hcheck
  exact ⟨hvetted, doc, hdoc, huris⟩

/-- What `metadata_url` asks of a client identifier. -/
structure IsMetadataUrl (url : Url) : Prop where
  scheme : url.scheme = "https"
  host : url.hostStr.isSome
  path : url.path ≠ "/"
  fragment : url.fragment = none
  query : url.query = none
  username : url.username = ""
  password : url.password = none

theorem metadataUrl_ok_iff {U : UrlCrate} {id : String} {url : Url} :
    metadataUrl U id = .ok url ↔ U.parse id = some url ∧ IsMetadataUrl url := by
  rw [metadataUrl, Outcome.mapError_eq_ok, Checks.metadataUrl]
  cases U.parse id with
  | none => simp
  | some found =>
    simp only [Option.some.injEq, Outcome.guard_eq_ok, not_or, not_not]
    constructor
    · rintro ⟨⟨hscheme, hhost, hpath, hfragment, hquery, husername, hpassword⟩, hok⟩
      obtain rfl := Except.ok.inj hok
      exact ⟨rfl, hscheme, Option.isSome_iff_ne_none.mpr hhost, hpath, hfragment, hquery, husername,
        hpassword⟩
    · rintro ⟨rfl, hurl⟩
      simp [hurl.scheme, hurl.path, hurl.fragment, hurl.query, hurl.username, hurl.password,
        Option.isSome_iff_ne_none.mp hurl.host]

/-! ## A document -/

def exampleId : String := "https://client.example/metadata"

def httpsUrl (host path : String) : Url :=
  { scheme := "https", username := "", password := none, hostPart := some ⟨.domain host, host⟩
    port := none, path, query := none, fragment := none }

/-- A crate that knows a metadata URL, a resource and loopback addresses. -/
def exampleCrate : UrlCrate :=
  .sample fun text =>
    if text = exampleId then some (httpsUrl "client.example" "/metadata")
    else if text = "https://api.example/" then some (httpsUrl "api.example" "/")
    else none

theorem exampleCrate_whatwg : exampleCrate.Whatwg := UrlCrate.sample_whatwg _

def exampleBytes : List UInt8 :=
  ("\x7b\"application_type\":\"native\",\"client_id\":\"https://client.example/metadata\"," ++
    "\"client_name\":\"Example\",\"redirect_uris\":[\"http://127.0.0.1/cb\"]\x7d").toUTF8.data.toList

/-- `serde_json` at that document. -/
def exampleSlice (bytes : List UInt8) : Option Json :=
  if bytes = exampleBytes then
    some (.obj [("application_type", .str "native"), ("client_id", .str exampleId),
      ("client_name", .str "Example"), ("redirect_uris", .arr [.str "http://127.0.0.1/cb"])])
  else none

theorem exampleDocument_parsed :
    parseDocument exampleCrate exampleSlice exampleId exampleBytes =
      .ok ⟨exampleId, "Example", ["http://127.0.0.1/cb"], true, .native⟩ := by
  have hslice : exampleSlice exampleBytes = some _ := if_pos rfl
  rw [parseDocument, Checks.decode, hslice]
  decide

end Authzoo.Oauth
