import Authzoo.Jwt
import Authzoo.Lib.Base64
import Mathlib.Data.Int.Order.Basic

/-!
# Authzoo.Oauth.Token

Issuing access tokens and ID tokens (`token.rs`): the signing key with its published half, the claims
of a grant, and the time to which they are bounded.

`p256` and the encoder of `jsonwebtoken` are not part of the repository, so they are a parameter
(`SigningCrates`); what ties a signed token to the decoder of `Authzoo.Jwt` is the hypothesis
`SigningCrates.Documented`. The random `jti` is an argument.
-/

namespace Authzoo.Oauth

/-! ## Instants -/

/-- The last second of the year 262142. -/
def maxSecs : Int := 8210266876799

/-- `DateTime<Utc>`: seconds since the epoch, and nanoseconds, which pass 10^9 in a leap second. -/
structure DateTime where
  secs : Int
  nanos : Nat
  secs_le : secs ≤ maxSecs
  nanos_lt : nanos < 2000000000
  deriving DecidableEq

namespace DateTime

/-- The fraction is dropped, which rounds down. -/
def timestamp (t : DateTime) : Int := t.secs

def le (a b : DateTime) : Prop := a.secs < b.secs ∨ a.secs = b.secs ∧ a.nanos ≤ b.nanos

instance (a b : DateTime) : Decidable (a.le b) := inferInstanceAs (Decidable (_ ∨ _))

/-- `Ord::min`. -/
def min (a b : DateTime) : DateTime := if a.le b then a else b

/-- `+` with a `Duration` of hours; an overflow panics. -/
def plusHours (t : DateTime) (hours : Nat) : Option DateTime :=
  if h : t.secs + 3600 * hours ≤ maxSecs then
    some ⟨t.secs + 3600 * hours, t.nanos % 1000000000, h, by omega⟩
  else none

theorem timestamp_min (a b : DateTime) : (a.min b).timestamp = Min.min a.timestamp b.timestamp := by
  unfold min timestamp
  by_cases h : a.le b
  · rw [if_pos h]
    unfold le at h
    omega
  · rw [if_neg h]
    unfold le at h
    omega

theorem timestamp_plusHours {t t' : DateTime} {hours : Nat} (h : t.plusHours hours = some t') :
    t'.timestamp = t.timestamp + 3600 * hours := by
  unfold plusHours at h
  split at h
  · cases h
    rfl
  · cases h

end DateTime

def tokenTtlHours : Nat := 1

/-! ## Keys -/

structure Principal where
  subject : String
  email : Option String
  groups : List String

structure Jwk where
  kty : String
  crv : String
  use_ : String
  alg : String
  kid : String
  x : String
  y : String
  deriving DecidableEq

structure JwksResponse where
  keys : List Jwk

inductive TokenError where
  | invalidSigningKey
  | encoding (source : ErrorKind)
  deriving DecidableEq

/-- The header of a token with its type. -/
structure TokenHeader extends Header where
  typ : Option String
  deriving DecidableEq

/-- The public point of a PKCS#8 key, and `encode` with such a key. -/
structure SigningCrates where
  publicPoint : List UInt8 → Option (List UInt8 × List UInt8)
  encode : TokenHeader → Json → List UInt8 → Except ErrorKind String

structure SigningKey where
  kid : String
  encodingKey : List UInt8
  publicJwk : Jwk

def SigningKey.fromPkcs8 (S : SigningCrates) (kid : String) (privateKeyDer : List UInt8) :
    Except TokenError SigningKey :=
  match S.publicPoint privateKeyDer with
  | none => .error .invalidSigningKey
  | some (x, y) =>
    .ok { kid, encodingKey := privateKeyDer
          publicJwk :=
            { kty := "EC", crv := "P-256", use_ := "sig", alg := "ES256", kid
              x := Base64.encode x, y := Base64.encode y } }

def SigningKey.sign (S : SigningCrates) (key : SigningKey) (claims : Json) (tokenType : String) :
    Except TokenError String :=
  match S.encode { alg := .es256, kid := some key.kid, typ := some tokenType } claims
      key.encodingKey with
  | .error source => .error (.encoding source)
  | .ok token => .ok token

/-! ## Access tokens -/

structure AccessTokenRequest where
  clientId : String
  resource : Option String
  scopes : List String

@[ext] structure AccessTokenClaims where
  iss : String
  sub : String
  aud : String
  clientId : String
  exp : Int
  iat : Int
  jti : String
  scope : String
  email : Option String
  groups : Option (List String)
  deriving DecidableEq

/-- The derived serialisation: an absent `email` or `groups` is left out. -/
def AccessTokenClaims.toJson (claims : AccessTokenClaims) : Json :=
  .obj ([("iss", .str claims.iss), ("sub", .str claims.sub), ("aud", .str claims.aud),
    ("client_id", .str claims.clientId), ("exp", .int claims.exp), ("iat", .int claims.iat),
    ("jti", .str claims.jti), ("scope", .str claims.scope)] ++
    (claims.email.toList.map fun email => ("email", .str email)) ++
    (claims.groups.toList.map fun groups => ("groups", .arr (groups.map .str))))

/-! ## ID tokens -/

structure IdTokenRequest where
  audience : String
  nonce : Option String
  authenticatedAt : DateTime
  includeGroups : Bool

structure IdTokenClaims where
  iss : String
  sub : String
  aud : String
  exp : Int
  iat : Int
  authTime : Int
  nonce : Option String
  email : Option String
  groups : Option (List String)
  deriving DecidableEq

/-- An absent `nonce` is null, an absent `email` or `groups` is left out. -/
def IdTokenClaims.toJson (claims : IdTokenClaims) : Json :=
  .obj ([("iss", .str claims.iss), ("sub", .str claims.sub), ("aud", .str claims.aud),
    ("exp", .int claims.exp), ("iat", .int claims.iat), ("auth_time", .int claims.authTime),
    ("nonce", claims.nonce.elim .null .str)] ++
    (claims.email.toList.map fun email => ("email", .str email)) ++
    (claims.groups.toList.map fun groups => ("groups", .arr (groups.map .str))))

/-! ## The issuer -/

structure TokenIssuer where
  issuer : String

namespace TokenIssuer

/-- The claims that `mint_access_token_until` signs; `limit` is `now` plus the token lifetime. -/
def accessTokenClaims (self : TokenIssuer) (principal : Principal) (request : AccessTokenRequest)
    (now expiresAt limit : DateTime) (jti : List UInt8) : AccessTokenClaims :=
  let hasScope := fun scope => request.scopes.any (· = scope)
  { iss := self.issuer, sub := principal.subject
    aud := request.resource.getD (self.issuer ++ "/userinfo")
    clientId := request.clientId
    exp := (expiresAt.min limit).timestamp
    iat := now.timestamp
    jti := Base64.encode jti
    scope := " ".intercalate request.scopes
    email := principal.email.filter fun _ => hasScope "email"
    groups := if hasScope "groups" then some principal.groups else none }

/-- `none` where the addition to `now` panics. -/
def mintAccessTokenUntil (S : SigningCrates) (self : TokenIssuer) (key : SigningKey)
    (principal : Principal) (request : AccessTokenRequest) (now expiresAt : DateTime)
    (jti : List UInt8) : Option (Except TokenError String) :=
  (now.plusHours tokenTtlHours).map fun limit =>
    key.sign S (self.accessTokenClaims principal request now expiresAt limit jti).toJson "at+jwt"

def mintAccessToken (S : SigningCrates) (self : TokenIssuer) (key : SigningKey)
    (principal : Principal) (request : AccessTokenRequest) (now : DateTime) (jti : List UInt8) :
    Option (Except TokenError String) :=
  (now.plusHours tokenTtlHours).bind fun expiresAt =>
    self.mintAccessTokenUntil S key principal request now expiresAt jti

/-- The claims that `mint_id_token` signs; `limit` is `now` plus the token lifetime. -/
def idTokenClaims (self : TokenIssuer) (principal : Principal) (request : IdTokenRequest)
    (now limit : DateTime) : IdTokenClaims :=
  { iss := self.issuer, sub := principal.subject, aud := request.audience
    exp := limit.timestamp
    iat := now.timestamp
    authTime := request.authenticatedAt.timestamp
    nonce := request.nonce
    email := principal.email
    groups := if request.includeGroups then some principal.groups else none }

def mintIdToken (S : SigningCrates) (self : TokenIssuer) (key : SigningKey) (principal : Principal)
    (request : IdTokenRequest) (now : DateTime) : Option (Except TokenError String) :=
  (now.plusHours tokenTtlHours).map fun limit =>
    key.sign S (self.idTokenClaims principal request now limit).toJson "JWT"

end TokenIssuer

end Authzoo.Oauth
