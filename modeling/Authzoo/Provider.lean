import Authzoo.Oauth.Discovery
import Authzoo.Rotation
import Authzoo.Tree

/-!
# Authzoo.Provider

A provider built from `authzoo-oauth`, which serves the document of `OpenidConfiguration::new` and the
public halves of its keys, before the validators of `authzoo`.

* `Provides.publishes` : what such a provider serves is read as it is meant.
* `Grant.offered_iff` : what a signed token says of a claim, for tokens of both kinds.
* `issued_accepted_iff` : when a token is accepted, for any role, across rotations.
-/

namespace Authzoo

/-! ## Reading what a host sends -/

/-- The derived decoder: other members are ignored, and a sequence has exactly the one element. -/
def OpenIdConfiguration.ofJson : Json → Option OpenIdConfiguration
  | .obj members =>
    if (Json.obj members).unrepeated ["jwks_uri"] then
      ((members.lookup "jwks_uri").bind Json.asStr).map .mk
    else none
  | .arr [jwksUri] => jwksUri.asStr.map .mk
  | _ => none

/-- A document that arrives. -/
def Fetch.parsed {α : Type} : Option α → Fetch α
  | some value => .ok value
  | none => .parseFailed

namespace Oauth

def JwksResponse.read (response : JwksResponse) : Option JwkSet :=
  (response.keys.mapM Jwk.read).map .mk

/-- The hosts answer with this document, and with these keys where it says. -/
structure Serves (env : Environment) (config : OpenidConfiguration) (keys : JwksResponse) : Prop where
  configuration : ∀ client, env.openidConfiguration client
    (Text.trimEndMatches (· = '/') config.issuer ++ "/.well-known/openid-configuration") =
      .parsed (OpenIdConfiguration.ofJson config.toJson)
  jwks : ∀ client, env.jwks client config.jwksUri = .parsed keys.read

/-- A provider with its keys, before a validator that can build its client. -/
structure Provides (S : SigningCrates) (env : Environment) (role : RoleConfig)
    (keys : List SigningKey) : Prop where
  client : ∃ client, discoveryClient env role = .ok client
  serves : Serves env (.new role.issuer) ⟨keys.map (·.publicJwk)⟩
  loaded : ∀ key ∈ keys, ∃ kid der, SigningKey.fromPkcs8 S kid der = .ok key
  distinct : (keys.map (·.kid)).Nodup

theorem OpenidConfiguration.read (config : OpenidConfiguration) :
    OpenIdConfiguration.ofJson config.toJson = some ⟨config.jwksUri⟩ := by
  obtain ⟨issuer, _, _, _, _, userinfoEndpoint⟩ := config
  cases userinfoEndpoint <;> rfl

theorem JwksResponse.read_keys {S : SigningCrates} {keys : List SigningKey}
    (hloaded : ∀ key ∈ keys, ∃ kid der, SigningKey.fromPkcs8 S kid der = .ok key) :
    ∃ jwks, JwksResponse.read ⟨keys.map (·.publicJwk)⟩ = some ⟨jwks⟩ ∧
      ∀ jwk, jwk ∈ jwks ↔ ∃ key ∈ keys, key.publicJwk.read = some jwk := by
  induction keys with
  | nil => exact ⟨[], rfl, by simp⟩
  | cons key keys ih =>
    obtain ⟨jwks, hread, hjwks⟩ := ih fun key' h => hloaded key' (List.mem_cons_of_mem _ h)
    obtain ⟨kid, der, hkey⟩ := hloaded key List.mem_cons_self
    obtain ⟨x, y, jwk, -, hjwk, -⟩ := fromPkcs8_ok hkey
    refine ⟨jwk :: jwks, ?_, fun jwk' => ?_⟩
    · obtain ⟨set, hset, hmk⟩ := Option.map_eq_some_iff.mp hread
      cases hmk
      simp only [read, List.map_cons, List.mapM_cons, hjwk, hset, bind, Option.bind, pure, Option.map]
    · simp only [List.mem_cons, hjwks, exists_eq_or_imp, hjwk, Option.some.injEq]
      exact or_congr_left eq_comm

theorem Provides.publishes {S : SigningCrates} {env : Environment} {role : RoleConfig}
    {keys : List SigningKey} (h : Provides S env role keys) {key : SigningKey} (hin : key ∈ keys) :
    Publishes env role key := by
  obtain ⟨client, hclient⟩ := h.client
  obtain ⟨jwks, hread, hjwks⟩ := JwksResponse.read_keys h.loaded
  obtain ⟨kid, der, hkey⟩ := h.loaded key hin
  obtain ⟨x, y, jwk, -, hjwk, -⟩ := fromPkcs8_ok hkey
  refine ⟨client, role.issuer ++ "/jwks.json", ⟨jwks⟩, jwk, hclient, ?_, ?_, hjwk,
    (hjwks jwk).mpr ⟨key, hin, hjwk⟩, ?_⟩
  · exact (h.serves.configuration client).trans (by rw [OpenidConfiguration.read]; rfl)
  · exact (h.serves.jwks client).trans (by rw [hread]; rfl)
  · intro other hother hkid
    obtain ⟨key', hin', hread'⟩ := (hjwks other).mp hother
    obtain ⟨kid', der', hkey'⟩ := h.loaded key' hin'
    obtain ⟨x', y', other', -, hother', hcommon, -⟩ := fromPkcs8_ok hkey'
    rw [hread'] at hother'
    obtain rfl := Option.some.inj hother'
    rw [hcommon] at hkid
    obtain rfl : key' = key := List.inj_on_of_nodup_map h.distinct hin' hin (Option.some.inj hkid)
    rw [hjwk] at hread'
    exact (Option.some.inj hread').symm

/-! ## The members of a token -/

theorem offeredBy_int {a : Acceptable} {n : Int} : ¬ a.OfferedBy (.int n) := by
  cases a <;> simp [Acceptable.OfferedBy]

theorem offeredBy_nullable {a : Acceptable} {text : Option String} :
    a.OfferedBy (text.elim .null .str) ↔ ∃ s, text = some s ∧ a = .text s := by
  cases text with
  | none => cases a <;> simp [Acceptable.OfferedBy]
  | some s => simp [offeredBy_str]

/-- A member that is left out where there is no value for it. -/
theorem offered_optional {α : Type} {member : Option α} {toJson : α → Json} {field name : String}
    {a : Acceptable} :
    (∃ given, (∃ v, member = some v ∧ field = name ∧ toJson v = given) ∧ a.OfferedBy given) ↔
      name = field ∧ ∃ v, member = some v ∧ a.OfferedBy (toJson v) := by
  constructor
  · rintro ⟨given, ⟨v, hv, rfl, rfl⟩, ha⟩
    exact ⟨rfl, v, hv, ha⟩
  · rintro ⟨rfl, v, hv, ha⟩
    exact ⟨toJson v, ⟨v, hv, rfl, rfl⟩, ha⟩

theorem AccessTokenClaims.distinct (claims : AccessTokenClaims) :
    ∃ members, claims.toJson = .obj members ∧ Assoc.Distinct members := by
  obtain ⟨iss, sub, aud, clientId, exp, iat, jti, scope, email, groups⟩ := claims
  refine ⟨_, rfl, ?_⟩
  cases email <;> cases groups <;> simp [Assoc.Distinct]

theorem IdTokenClaims.distinct (claims : IdTokenClaims) :
    ∃ members, claims.toJson = .obj members ∧ Assoc.Distinct members := by
  obtain ⟨iss, sub, aud, exp, iat, authTime, nonce, email, groups⟩ := claims
  refine ⟨_, rfl, ?_⟩
  cases email <;> cases groups <;> simp [Assoc.Distinct]

theorem AccessTokenClaims.offered_iff (claims : AccessTokenClaims) {name : String} {a : Acceptable} :
    (∃ given, claims.toJson.get? name = some given ∧ a.OfferedBy given) ↔
      (name = "iss" ∧ a = .text claims.iss) ∨ (name = "sub" ∧ a = .text claims.sub) ∨
      (name = "aud" ∧ a = .text claims.aud) ∨ (name = "client_id" ∧ a = .text claims.clientId) ∨
      (name = "jti" ∧ a = .text claims.jti) ∨ (name = "scope" ∧ a = .text claims.scope) ∨
      (name = "email" ∧ ∃ email, claims.email = some email ∧ a = .text email) ∨
      (name = "groups" ∧ ∃ groups, claims.groups = some groups ∧
        ∃ group ∈ groups, a = .element group) := by
  obtain ⟨members, hmembers, hdistinct⟩ := claims.distinct
  rw [hmembers]
  simp only [Json.get?, Assoc.lookup_iff_mem hdistinct]
  obtain rfl := Json.obj.inj hmembers
  simp only [List.mem_append, List.mem_cons, List.not_mem_nil, or_false, Prod.mk.injEq, List.mem_map,
    Option.mem_toList, or_and_right, exists_or, and_assoc, exists_and_left, exists_eq_left,
    offeredBy_str, offeredBy_int, and_false, false_or, or_assoc, offered_optional, offeredBy_strs]

theorem IdTokenClaims.offered_iff (claims : IdTokenClaims) {name : String} {a : Acceptable} :
    (∃ given, claims.toJson.get? name = some given ∧ a.OfferedBy given) ↔
      (name = "iss" ∧ a = .text claims.iss) ∨ (name = "sub" ∧ a = .text claims.sub) ∨
      (name = "aud" ∧ a = .text claims.aud) ∨
      (name = "nonce" ∧ ∃ nonce, claims.nonce = some nonce ∧ a = .text nonce) ∨
      (name = "email" ∧ ∃ email, claims.email = some email ∧ a = .text email) ∨
      (name = "groups" ∧ ∃ groups, claims.groups = some groups ∧
        ∃ group ∈ groups, a = .element group) := by
  obtain ⟨members, hmembers, hdistinct⟩ := claims.distinct
  rw [hmembers]
  simp only [Json.get?, Assoc.lookup_iff_mem hdistinct]
  obtain rfl := Json.obj.inj hmembers
  simp only [List.mem_append, List.mem_cons, List.not_mem_nil, or_false, Prod.mk.injEq, List.mem_map,
    Option.mem_toList, or_and_right, exists_or, and_assoc, exists_and_left, exists_eq_left,
    offeredBy_str, offeredBy_int, and_false, false_or, or_assoc, offered_optional, offeredBy_strs,
    offeredBy_nullable]

/-! ## Grants -/

/-- What a token is signed for. -/
inductive Grant where
  | access (request : AccessTokenRequest) (expiresAt : DateTime)
  | identity (request : IdTokenRequest)

namespace Grant

def mint (S : SigningCrates) (issuer : TokenIssuer) (key : SigningKey) (principal : Principal)
    (now : DateTime) (jti : List UInt8) : Grant → Option (Except TokenError String)
  | access request expiresAt =>
    issuer.mintAccessTokenUntil S key principal request now expiresAt jti
  | identity request => issuer.mintIdToken S key principal request now

def audience (issuer : TokenIssuer) : Grant → String
  | access request _ => request.resource.getD (issuer.issuer ++ "/userinfo")
  | identity request => request.audience

/-- The last second of the token. -/
def expiry (now : DateTime) : Grant → Int
  | access _ expiresAt => min expiresAt.timestamp (now.timestamp + 3600)
  | identity _ => now.timestamp + 3600

/-- What a token says that a requirement can ask for. -/
inductive Says (issuer : TokenIssuer) (principal : Principal) (jti : List UInt8) :
    Grant → String → Acceptable → Prop where
  | issuer {g : Grant} : Says issuer principal jti g "iss" (.text issuer.issuer)
  | subject {g : Grant} : Says issuer principal jti g "sub" (.text principal.subject)
  | audience {g : Grant} : Says issuer principal jti g "aud" (.text (g.audience issuer))
  | client {request : AccessTokenRequest} {expiresAt : DateTime} :
    Says issuer principal jti (access request expiresAt) "client_id" (.text request.clientId)
  | tokenId {request : AccessTokenRequest} {expiresAt : DateTime} :
    Says issuer principal jti (access request expiresAt) "jti" (.text (Base64.encode jti))
  | scope {request : AccessTokenRequest} {expiresAt : DateTime} :
    Says issuer principal jti (access request expiresAt) "scope"
      (.text (" ".intercalate request.scopes))
  | email {request : AccessTokenRequest} {expiresAt : DateTime} {email : String}
      (hscope : "email" ∈ request.scopes) (hemail : principal.email = some email) :
    Says issuer principal jti (access request expiresAt) "email" (.text email)
  | group {request : AccessTokenRequest} {expiresAt : DateTime} {group : String}
      (hscope : "groups" ∈ request.scopes) (hgroup : group ∈ principal.groups) :
    Says issuer principal jti (access request expiresAt) "groups" (.element group)
  | nonce {request : IdTokenRequest} {nonce : String} (hnonce : request.nonce = some nonce) :
    Says issuer principal jti (identity request) "nonce" (.text nonce)
  | identityEmail {request : IdTokenRequest} {email : String}
      (hemail : principal.email = some email) :
    Says issuer principal jti (identity request) "email" (.text email)
  | identityGroup {request : IdTokenRequest} {group : String}
      (hinclude : request.includeGroups = true) (hgroup : group ∈ principal.groups) :
    Says issuer principal jti (identity request) "groups" (.element group)

def payload (issuer : TokenIssuer) (principal : Principal) (now limit : DateTime)
    (jti : List UInt8) : Grant → Json
  | access request expiresAt =>
    (issuer.accessTokenClaims principal request now expiresAt limit jti).toJson
  | identity request => (issuer.idTokenClaims principal request now limit).toJson

variable {issuer : TokenIssuer} {principal : Principal} {now limit : DateTime} {jti : List UInt8}

/-- The payload of a token says what the grant says. -/
theorem says_iff {g : Grant} {name : String} {a : Acceptable} :
    (∃ given, (g.payload issuer principal now limit jti).get? name = some given ∧
      a.OfferedBy given) ↔ Says issuer principal jti g name a := by
  cases g with
  | access request expiresAt =>
    rw [payload, AccessTokenClaims.offered_iff, email_disclosed, groups_disclosed]
    constructor
    · rintro (⟨rfl, rfl⟩ | ⟨rfl, rfl⟩ | ⟨rfl, rfl⟩ | ⟨rfl, rfl⟩ | ⟨rfl, rfl⟩ | ⟨rfl, rfl⟩ |
        ⟨rfl, email, hemail, rfl⟩ | ⟨rfl, groups, hgroups, group, hgroup, rfl⟩)
      · exact .issuer
      · exact .subject
      · exact .audience
      · exact .client
      · exact .tokenId
      · exact .scope
      · obtain ⟨hscope, hemail⟩ := Option.ite_none_right_eq_some.mp hemail
        exact .email hscope hemail
      · obtain ⟨hscope, hgroups⟩ := Option.ite_none_right_eq_some.mp hgroups
        cases hgroups
        exact .group hscope hgroup
    · intro h
      cases h with
      | issuer => exact .inl ⟨rfl, rfl⟩
      | subject => exact .inr (.inl ⟨rfl, rfl⟩)
      | audience => exact .inr (.inr (.inl ⟨rfl, rfl⟩))
      | client => exact .inr (.inr (.inr (.inl ⟨rfl, rfl⟩)))
      | tokenId => exact .inr (.inr (.inr (.inr (.inl ⟨rfl, rfl⟩))))
      | scope => exact .inr (.inr (.inr (.inr (.inr (.inl ⟨rfl, rfl⟩)))))
      | email hscope hemail =>
        exact .inr (.inr (.inr (.inr (.inr (.inr (.inl ⟨rfl, _, by rw [if_pos hscope, hemail], rfl⟩))))))
      | group hscope hgroup =>
        exact .inr (.inr (.inr (.inr (.inr (.inr (.inr
          ⟨rfl, _, by rw [if_pos hscope], _, hgroup, rfl⟩))))))
  | identity request =>
    have hgroups : (issuer.idTokenClaims principal request now limit).groups =
        if request.includeGroups = true then some principal.groups else none := rfl
    rw [payload, IdTokenClaims.offered_iff, hgroups]
    constructor
    · rintro (⟨rfl, rfl⟩ | ⟨rfl, rfl⟩ | ⟨rfl, rfl⟩ | ⟨rfl, nonce, hnonce, rfl⟩ |
        ⟨rfl, email, hemail, rfl⟩ | ⟨rfl, groups, hgroups, group, hgroup, rfl⟩)
      · exact .issuer
      · exact .subject
      · exact .audience
      · exact .nonce hnonce
      · exact .identityEmail hemail
      · obtain ⟨hinclude, hgroups⟩ := Option.ite_none_right_eq_some.mp hgroups
        cases hgroups
        exact .identityGroup hinclude hgroup
    · intro h
      cases h with
      | issuer => exact .inl ⟨rfl, rfl⟩
      | subject => exact .inr (.inl ⟨rfl, rfl⟩)
      | audience => exact .inr (.inr (.inl ⟨rfl, rfl⟩))
      | nonce hnonce => exact .inr (.inr (.inr (.inl ⟨rfl, _, hnonce, rfl⟩)))
      | identityEmail hemail => exact .inr (.inr (.inr (.inr (.inl ⟨rfl, _, hemail, rfl⟩))))
      | identityGroup hinclude hgroup =>
        exact .inr (.inr (.inr (.inr (.inr ⟨rfl, _, by rw [if_pos hinclude], _, hgroup, rfl⟩))))

/-- The members of a payload, with those that every token has. -/
theorem payload_members (issuer : TokenIssuer) (principal : Principal) (now limit : DateTime)
    (jti : List UInt8) (g : Grant) :
    ∃ members, g.payload issuer principal now limit jti = .obj members ∧ Assoc.Distinct members ∧
      members.lookup "sub" = some (.str principal.subject) ∧
      members.lookup "iss" = some (.str issuer.issuer) ∧
      members.lookup "aud" = some (.str (g.audience issuer)) := by
  cases g with
  | access request expiresAt =>
    obtain ⟨members, hmembers, hdistinct⟩ := AccessTokenClaims.distinct
      (issuer.accessTokenClaims principal request now expiresAt limit jti)
    refine ⟨members, hmembers, hdistinct, ?_⟩
    obtain rfl := Json.obj.inj hmembers
    exact ⟨rfl, rfl, rfl⟩
  | identity request =>
    obtain ⟨members, hmembers, hdistinct⟩ := IdTokenClaims.distinct
      (issuer.idTokenClaims principal request now limit)
    refine ⟨members, hmembers, hdistinct, ?_⟩
    obtain rfl := Json.obj.inj hmembers
    exact ⟨rfl, rfl, rfl⟩

theorem payload_exp {g : Grant} (hlimit : now.plusHours tokenTtlHours = some limit) :
    (g.payload issuer principal now limit jti).get? "exp" = some (.int (g.expiry now)) := by
  cases g with
  | access request expiresAt =>
    rw [expiry, ← minted_exp hlimit]
    rfl
  | identity request =>
    have hhour : limit.timestamp = now.timestamp + 3600 := DateTime.timestamp_plusHours hlimit
    rw [expiry, ← hhour]
    rfl

end Grant

end Oauth

/-! ## Acceptance -/

namespace Oauth

/-- A token of the issuer, of either kind. -/
structure Issued (J : JsonWebToken) (S : SigningCrates) (issuer : TokenIssuer) (key : SigningKey)
    (principal : Principal) (grant : Grant) (now : DateTime) (jti : List UInt8) (token : String) :
    Prop where
  documented : J.Documented
  unsigned : ∀ n : Int, n < 0 → J.numericDate (.int n) = none
  signing : S.Documented J
  minted : grant.mint S issuer key principal now jti = some (.ok token)

section

variable {J : JsonWebToken} {S : SigningCrates} {issuer : TokenIssuer} {key : SigningKey}
  {principal : Principal} {grant : Grant} {now : DateTime} {jti : List UInt8} {token : String}

theorem Issued.encoded (h : Issued J S issuer key principal grant now jti token) :
    ∃ typ limit, now.plusHours tokenTtlHours = some limit ∧
      S.encode { alg := .es256, kid := some key.kid, typ := some typ }
        (grant.payload issuer principal now limit jti) key.encodingKey = .ok token := by
  have hminted := h.minted
  cases grant with
  | access request expiresAt =>
    obtain ⟨limit, hlimit, hencode⟩ := mint_ok hminted
    exact ⟨_, limit, hlimit, hencode⟩
  | identity request =>
    obtain ⟨limit, hlimit, hencode⟩ := mintId_ok hminted
    exact ⟨_, limit, hlimit, hencode⟩

variable {env : Environment} {role : RoleConfig} {keys : List SigningKey}

/-- After any history that never gave the `kid` to another key, the role finds the key. -/
theorem Issued.verified (h : Issued J S issuer key principal grant now jti token)
    (hserves : Provides S env role keys) (hkey : key ∈ keys) (hdiscovers : role.validationKey = none)
    (hallow : role.allowsAlgorithm .es256 = true) (history : List Call)
    (hstable : ∀ call ∈ history, ∀ client jwk,
      (call.env.jwks client (role.issuer ++ "/jwks.json")).Binds key.kid jwk →
        key.publicJwk.read = some jwk) (clock : Nat → Instant) :
    ∃ header decodingKey, J.decodeHeader token = some header ∧
      role.allowsAlgorithm header.alg = true ∧
      (resolvingDecodingKey J env role token header.alg
        (history.foldl (Call.run J) (World.start clock))).1 = .ok decodingKey ∧
      J.verify token decodingKey header.alg = true := by
  obtain ⟨typ, limit, -, hencode⟩ := h.encoded
  obtain ⟨kid, der, hloaded⟩ := hserves.loaded key hkey
  have hheader := h.signing.header hencode
  have hpublished := hserves.publishes hkey
  obtain ⟨x, y, jwk, hpoint, halg, hdirect⟩ := hpublished.found hloaded hheader
  obtain ⟨decodingKey, hjwk, hverify⟩ := h.signing.verify hencode rfl hpoint halg
  obtain ⟨client, uri, jwk', hclient, hconfig, hbinds, hread⟩ := hpublished.bound hloaded
  obtain rfl : uri = role.issuer ++ "/jwks.json" := by
    have hserved := hserves.serves.configuration client
    rw [OpenidConfiguration.read] at hserved
    rw [openidConfigurationUrl] at hconfig
    have hsame := hconfig.symm.trans hserved
    cases hsame
    rfl
  have hlocate : locateJwks J env role token =
      .ok ⟨some key.kid, client, role.issuer ++ "/jwks.json"⟩ := by
    rw [openidConfigurationUrl] at hconfig
    simp only [locateJwks, hheader, hclient, hconfig, context, Fetch.json, bind, Except.bind, pure,
      Except.pure]
  have hcaches : (history.foldl (Call.run J) (World.start clock)).Caches
      (role.issuer ++ "/jwks.json") key.kid fun entry =>
        (env.jwks client (role.issuer ++ "/jwks.json")).Binds key.kid entry.jwk := by
    refine history_keeps (fun call hcall w w' hw hstep => ?_) (start_caches _ _ _ clock)
    refine step_caches hw hstep fun client' set jwk'' hset hfind => ?_
    have hread' := hstable call hcall client' jwk'' ⟨set, hset, hfind⟩
    rw [hread] at hread'
    rwa [← Option.some.inj hread']
  have hfound := (discovery_bound hlocate rfl hcaches .es256).trans (hdirect.trans hjwk)
  refine ⟨_, decodingKey, hheader, hallow, ?_, hverify⟩
  rw [resolvingDecodingKey, hdiscovers]
  exact toOption_eq_some.mp hfound

theorem names_str_iff {members : List (String × Json)} {claim s s' : String}
    (h : members.lookup claim = some (.str s)) :
    ((Json.obj members).Parses claim → (Json.obj members).Names claim s') ↔ s' = s := by
  have hget : (Json.obj members).get? claim = some (.str s) := h
  constructor
  · intro hnames
    obtain ⟨given, hread, hin⟩ := hnames ⟨[s], by rw [hget]; rfl⟩
    rw [hget] at hread
    cases hread
    exact List.mem_singleton.mp hin
  · rintro rfl _
    exact names_str hget

/-- When a token of the issuer is accepted for a role. -/
theorem Issued.accepted_iff (h : Issued J S issuer key principal grant now jti token)
    (hserves : role.issuer = issuer.issuer → Provides S env role keys) (hkey : key ∈ keys)
    (hdiscovers : role.validationKey = none) (history : List Call)
    (hstable : ∀ call ∈ history, ∀ client jwk,
      (call.env.jwks client (issuer.issuer ++ "/jwks.json")).Binds key.kid jwk →
        key.publicJwk.read = some jwk) (clock : Nat → Instant) (tau : Nat) :
    (∃ c, (validateTokenForRole J env tau role token
        (history.foldl (Call.run J) (World.start clock))).1 = .ok c) ↔
      role.allowsAlgorithm .es256 = true ∧ role.issuer = issuer.issuer ∧
      role.audience = grant.audience issuer ∧ 0 ≤ grant.expiry now ∧
      (tau : Int) ≤ grant.expiry now + (role.validation .es256).leeway ∧
      ∀ (name : String) (requirement : ClaimRequirement), role.claims[name]? = some requirement →
        ∃ a ∈ requirement.acceptable, Grant.Says issuer principal jti grant name a := by
  obtain ⟨typ, limit, hlimit, hencode⟩ := h.encoded
  have hpayload := h.signing.payload hencode
  have hheader := h.signing.header hencode
  obtain ⟨members, hmembers, hdistinct, hsub, hiss, haud⟩ :=
    grant.payload_members issuer principal now limit jti
  obtain ⟨c, hdecoded, hvalue⟩ := ValidatedClaims.deserialize_distinct hdistinct hsub
  have hexp : (Json.obj members).get? "exp" = some (.int (grant.expiry now)) := by
    rw [← hmembers]
    exact Grant.payload_exp hlimit
  have hfresh := numericDate_fresh h.documented h.unsigned (grant.expiry now) tau
  have hclaims : c.requireClaims role.claims = .ok () ↔
      ∀ (name : String) (requirement : ClaimRequirement), role.claims[name]? = some requirement →
        ∃ a ∈ requirement.acceptable, Grant.Says issuer principal jti grant name a := by
    rw [ValidatedClaims.requireClaims_ok]
    refine forall₃_congr fun name requirement _ => exists_congr fun a => and_congr_right fun _ => ?_
    rw [hvalue, ← hmembers, Grant.says_iff]
  rw [hmembers] at hpayload
  rw [validateTokenForRole_accepts h.documented]
  constructor
  · rintro ⟨p, hp, hpasses, hissuer, haudience⟩
    rw [hpayload] at hp
    obtain rfl := Option.some.inj hp
    obtain ⟨header, decodingKey, hdecode, hallow, -⟩ := hpasses.verified
    rw [hheader] at hdecode
    obtain rfl := Option.some.inj hdecode
    obtain ⟨exp, hdate, hle⟩ := hpasses.unexpired
    rw [hexp, Option.bind_some] at hdate
    obtain ⟨hnonneg, htau⟩ := hfresh.mp ⟨exp, hdate, hle⟩
    obtain ⟨c', hc', hreq⟩ := hpasses.claims
    rw [hdecoded] at hc'
    obtain rfl := Option.some.inj hc'
    exact ⟨hallow, (names_str_iff hiss).mp hissuer, (names_str_iff haud).mp haudience, hnonneg, htau,
      hclaims.mp hreq⟩
  · rintro ⟨hallow, hissuer, haudience, hnonneg, htau, hsays⟩
    obtain ⟨exp, hdate, hle⟩ := hfresh.mpr ⟨hnonneg, htau⟩
    have hverified := h.verified (hserves hissuer) hkey hdiscovers hallow history
      (by rwa [hissuer]) clock
    exact ⟨_, hpayload, ⟨hverified, Json.unrepeated_distinct hdistinct,
      ⟨exp, by rw [hexp, Option.bind_some, hdate], hle⟩, c, hdecoded, hclaims.mpr hsays⟩,
      (names_str_iff hiss).mpr hissuer, (names_str_iff haud).mpr haudience⟩

end

/-- **Tokens of both kinds, across rotations.** After any history of calls, in which the issuer gave the
`kid` of the signing key to no other key, a token of a provider that now serves this key is accepted
for a role exactly if the role allows ES256 and trusts the issuer for the token's audience, the token
lives, and it says what the role requires. An ID token is for its client, so no other audience accepts
it. -/
theorem issued_accepted_iff (J : JsonWebToken) (S : SigningCrates) (issuer : TokenIssuer)
    (key : SigningKey) (principal : Principal) (grant : Grant) (now : DateTime) (jti : List UInt8)
    (token : String) (h : Issued J S issuer key principal grant now jti token) (env : Environment)
    (role : RoleConfig) (keys : List SigningKey)
    (hserves : role.issuer = issuer.issuer → Provides S env role keys) (hkey : key ∈ keys)
    (hdiscovers : role.validationKey = none) (history : List Call)
    (hstable : ∀ call ∈ history, ∀ client jwk,
      (call.env.jwks client (issuer.issuer ++ "/jwks.json")).Binds key.kid jwk →
        key.publicJwk.read = some jwk) (clock : Nat → Instant) (v : TokenValidator)
    (roleName : String) (hrole : v.roles[roleName]? = some role) (tau : Nat) :
    (∃ c, (v.validateForRole J env tau roleName token
        (history.foldl (Call.run J) (World.start clock))).1 = .ok c) ↔
      role.allowsAlgorithm .es256 = true ∧ role.issuer = issuer.issuer ∧
      role.audience = grant.audience issuer ∧ 0 ≤ grant.expiry now ∧
      (tau : Int) ≤ grant.expiry now + (role.validation .es256).leeway ∧
      ∀ (name : String) (requirement : ClaimRequirement), role.claims[name]? = some requirement →
        ∃ a ∈ requirement.acceptable, Grant.Says issuer principal jti grant name a := by
  simp only [TokenValidator.validateForRole, hrole]
  exact h.accepted_iff hserves hkey hdiscovers history hstable clock tau

/-! ## A client that signs alice in -/

/-- The client's own role, for the ID tokens that it receives. -/
def signInRole : RoleConfig :=
  { name := "sign-in", audience := "https://client.example/client.json"
    issuer := "https://idfrog.example", validationKey := none, algorithms := [.es256]
    claims := .ofList [("email", ClaimRequirement.equals "alice@example.com")] }

theorem signInRole_valid : signInRole.validate = .ok () := by decide

def signInValidator : TokenValidator := toolsValidator.add signInRole signInRole_valid

theorem idToken_issued : Issued (identityCrate signInClaims idToken)
    (identityCrates signInClaims idToken) idfrog signingKey alice (.identity signIn)
    (instant 1700000000 (by decide)) [] idToken where
  documented :=
    ⟨(JsonWebToken.known_documented [signedIdToken signInClaims idToken]).decode_ok,
      (JsonWebToken.known_documented [signedIdToken signInClaims idToken]).numericDate_int⟩
  unsigned n h := if_neg (by omega)
  signing := identityCrates_documented signInClaims idToken
  minted := idToken_minted

theorem idfrog_provides {role : RoleConfig} (hissuer : role.issuer = "https://idfrog.example") :
    Provides (identityCrates signInClaims idToken) idfrogEnvironment role [signingKey] where
  client := ⟨⟨none, none⟩, by
    have hkube : isKubernetesServiceIssuer "https://idfrog.example" = false := by decide
    simp only [discoveryClient, hissuer, hkube]
    rfl⟩
  serves := by
    rw [hissuer]
    exact ⟨fun _ => by rw [OpenidConfiguration.read]; rfl, fun _ => rfl⟩
  loaded key hkey := by
    obtain rfl := List.mem_singleton.mp hkey
    exact ⟨"configured-key", signingDer, rfl⟩
  distinct := List.nodup_singleton _

theorem signInRole_claims {name : String} {requirement : ClaimRequirement}
    (h : signInRole.claims[name]? = some requirement) :
    name = "email" ∧ requirement = .equals "alice@example.com" := by
  rw [signInRole, BTreeMap.getElem?_ofList] at h
  simpa using Assoc.lookup_mem h

theorem signInValidator_tools : signInValidator.roles["tools"]? = some toolsRole := by
  have hother : ¬ compare "sign-in" "tools" = .eq := by decide
  rw [signInValidator, TokenValidator.add, Std.ExtTreeMap.getElem?_insert]
  exact (if_neg hother).trans toolsValidator_tools

def signInCall (keys : List Authzoo.Jwk) : Call :=
  { toolsCall keys with validator := signInValidator, roleName := some "sign-in", token := idToken }

/-- After a rotation the client takes the ID token until a minute after its hour, with the key in the
cache, and the tool never does. -/
theorem issued_accepted_iff_signIn :
    let w := (rotatedKeys.map signInCall).foldl (Call.run (identityCrate signInClaims idToken))
      (World.start id)
    (cachedJwksKey w.keyCache (.new "https://idfrog.example/jwks.json" (some "configured-key") .es256)
        .es256 w.now).1 = some readJwk ∧
      (∃ c, (signInValidator.validateForRole (identityCrate signInClaims idToken) idfrogEnvironment
        1700003660 "sign-in" idToken w).1 = .ok c) ∧
      ¬ ∃ c, (signInValidator.validateForRole (identityCrate signInClaims idToken) idfrogEnvironment
        1700003660 "tools" idToken w).1 = .ok c := by
  have hstable : ∀ call ∈ rotatedKeys.map signInCall, ∀ client jwk,
      (call.env.jwks client (idfrog.issuer ++ "/jwks.json")).Binds signingKey.kid jwk →
        signingKey.publicJwk.read = some jwk := by
    intro call hcall client jwk hbinds
    obtain ⟨keys, hkeys, rfl⟩ := List.mem_map.mp hcall
    obtain rfl := rotatedKeys_bound hkeys hbinds
    rfl
  refine ⟨by decide +kernel, ?_, ?_⟩
  · refine (issued_accepted_iff _ _ _ _ _ _ _ _ _ idToken_issued idfrogEnvironment signInRole
      [signingKey] (fun _ => idfrog_provides rfl) (List.mem_singleton_self _) rfl _ hstable id
      signInValidator "sign-in" (TokenValidator.roles_add signInRole_valid) 1700003660).mpr
        ⟨by decide, rfl, rfl, by decide, by decide, fun name requirement hrequired => ?_⟩
    obtain ⟨rfl, rfl⟩ := signInRole_claims hrequired
    exact ⟨.text "alice@example.com", rfl, .identityEmail rfl⟩
  · intro haccepted
    have haudience := ((issued_accepted_iff _ _ _ _ _ _ _ _ _ idToken_issued idfrogEnvironment
      toolsRole [signingKey] (fun _ => idfrog_provides rfl) (List.mem_singleton_self _) rfl _ hstable
      id signInValidator "tools" signInValidator_tools 1700003660).mp haccepted).2.2.1
    exact absurd haudience (by decide)

end Oauth

end Authzoo
