import Std.Data.ExtTreeMap.Lemmas

/-!
# Authzoo.Jwt

JSON trees, signature algorithms and keys, and the part of the `jsonwebtoken` crate that the
validator calls. The crate itself is not part of the repository, so it is a parameter
(`JsonWebToken`); what its documentation promises about `decode` is the hypothesis
`JsonWebToken.Documented`.

`Validation` is the crate's settings record. `Validation.new` carries its documented defaults:
only `exp` is required, `aud` and `iss` are compared when they are present and parse.
-/

namespace Authzoo

/-- Rust's ordered map; iteration is in ascending key order. -/
abbrev BTreeMap (K V : Type) [Ord K] := Std.ExtTreeMap K V compare

/-- A parsed JSON tree. Members keep document order and may repeat a name. A number is an
integer or the bit pattern of an `f64`. -/
inductive Json where
  | null
  | bool (b : Bool)
  | int (n : Int)
  | float (bits : UInt64)
  | str (s : String)
  | arr (xs : List Json)
  | obj (members : List (String × Json))

namespace Json

def asStr : Json → Option String
  | .str s => some s
  | _ => none

def asArray : Json → Option (List Json)
  | .arr xs => some xs
  | _ => none

def get? (name : String) : Json → Option Json
  | .obj members => members.lookup name
  | _ => none

/-- The strings a registered claim names: one string, or a list of strings only. -/
def names : Json → Option (List String)
  | .str s => some [s]
  | .arr xs => xs.mapM asStr
  | _ => none

/-- No member of `registered` is repeated: a derived struct refuses a repeated field. -/
def unrepeated (registered : List String) : Json → Bool
  | .obj members => registered.all fun name => (members.filter (·.1 = name)).length ≤ 1
  | _ => false

end Json

/-- The algorithms the crate names. The wildcard arms of the source stand for algorithms of later
library versions; `RoleConfig.allowsAlgorithm` lets none of those reach them. -/
inductive Algorithm where
  | hs256 | hs384 | hs512
  | rs256 | rs384 | rs512
  | ps256 | ps384 | ps512
  | es256 | es384
  | edDsa
  deriving DecidableEq

/-- The `Debug` text of an algorithm. -/
def Algorithm.debug : Algorithm → String
  | .hs256 => "HS256" | .hs384 => "HS384" | .hs512 => "HS512"
  | .rs256 => "RS256" | .rs384 => "RS384" | .rs512 => "RS512"
  | .ps256 => "PS256" | .ps384 => "PS384" | .ps512 => "PS512"
  | .es256 => "ES256" | .es384 => "ES384"
  | .edDsa => "EdDSA"

theorem Algorithm.debug_inj {a b : Algorithm} (h : a.debug = b.debug) : a = b := by
  revert h
  cases a <;> cases b <;> decide

def Algorithm.isHmac : Algorithm → Bool
  | .hs256 | .hs384 | .hs512 => true
  | _ => false

/-! ## Published keys -/

inductive PublicKeyUse where
  | signature
  | encryption
  | other (name : String)
  deriving DecidableEq

/-- The `alg` attribute of a key. `other` holds the algorithms that sign nothing. -/
inductive KeyAlgorithm where
  | hs256 | hs384 | hs512
  | rs256 | rs384 | rs512
  | ps256 | ps384 | ps512
  | es256 | es384
  | edDsa
  | other (name : String)
  deriving DecidableEq

inductive EllipticCurve where
  | p256 | p384 | p521 | ed25519
  deriving DecidableEq

inductive AlgorithmParameters where
  | ellipticCurve (curve : EllipticCurve) (x y : String)
  | rsa (n e : String)
  | octetKey (value : String)
  | octetKeyPair (curve : EllipticCurve) (x : String)
  deriving DecidableEq

structure CommonParameters where
  publicKeyUse : Option PublicKeyUse
  keyAlgorithm : Option KeyAlgorithm
  keyId : Option String
  deriving DecidableEq

structure Jwk where
  common : CommonParameters
  algorithm : AlgorithmParameters
  deriving DecidableEq

structure JwkSet where
  keys : List Jwk
  deriving DecidableEq

/-- `JwkSet::find`: the first key with this `kid`. -/
def JwkSet.find (set : JwkSet) (kid : String) : Option Jwk :=
  set.keys.find? fun jwk => jwk.common.keyId = some kid

/-! ## Decoding -/

structure Header where
  alg : Algorithm
  kid : Option String
  deriving DecidableEq

inductive ErrorKind where
  | invalidToken
  | invalidSignature
  | invalidAlgorithm
  | missingRequiredClaim (claim : String)
  | expiredSignature
  | invalidIssuer
  | invalidAudience
  | json
  | other (name : String)
  deriving DecidableEq

structure Validation where
  algorithm : Algorithm
  requiredSpecClaims : List String
  leeway : Nat
  aud : Option (List String)
  iss : Option (List String)

namespace Validation

def new (algorithm : Algorithm) : Validation :=
  { algorithm, requiredSpecClaims := ["exp"], leeway := 60, aud := none, iss := none }

def setAudience (v : Validation) (items : List String) : Validation := { v with aud := some items }

def setIssuer (v : Validation) (items : List String) : Validation := { v with iss := some items }

end Validation

/-- The `jsonwebtoken` crate. `verify` and `payload` are what `decode` computes of a token;
`numericDate` reads a registered time. -/
structure JsonWebToken where
  DecodingKey : Type
  decodeHeader : String → Option Header
  fromSecret : String → DecodingKey
  fromRsaPem : String → Option DecodingKey
  fromEcPem : String → Option DecodingKey
  fromEdPem : String → Option DecodingKey
  fromJwk : Jwk → Option DecodingKey
  verify : String → DecodingKey → Algorithm → Bool
  payload : String → Option Json
  numericDate : Json → Option Nat
  decode : {α : Type} → (Json → Option α) → Nat → String → DecodingKey → Validation →
    Except ErrorKind α

namespace JsonWebToken

variable (J : JsonWebToken)

/-- The registered claims that validation reads. -/
def registered : List String := ["exp", "nbf", "sub", "iss", "aud"]

/-- Whether a claim of `required_spec_claims` is present and parses. -/
def present (p : Json) : String → Bool
  | "exp" => ((p.get? "exp").bind J.numericDate).isSome
  | "nbf" => ((p.get? "nbf").bind J.numericDate).isSome
  | "sub" => ((p.get? "sub").bind Json.asStr).isSome
  | "iss" => ((p.get? "iss").bind Json.names).isSome
  | "aud" => ((p.get? "aud").bind Json.names).isSome
  | _ => true

/-- Not past, with the leeway; an `exp` that does not parse is only caught by `present`. -/
def expNotPast (v : Validation) (now : Nat) (p : Json) : Bool :=
  match (p.get? "exp").bind J.numericDate with
  | some exp => now ≤ exp + v.leeway
  | none => true

/-- Compared when set, present and parsed; a list needs one common element. -/
def issAccepted (v : Validation) (p : Json) : Bool :=
  match (p.get? "iss").bind Json.names, v.iss with
  | some given, some expected => given.any (expected.contains ·)
  | _, _ => true

def audAccepted (v : Validation) (p : Json) : Bool :=
  match (p.get? "aud").bind Json.names, v.aud with
  | some given, some expected => given.any (expected.contains ·)
  | some _, none => false
  | none, _ => true

/-- The registered-claim checks of `decode`. -/
def accepts (v : Validation) (now : Nat) (p : Json) : Bool :=
  p.unrepeated registered && v.requiredSpecClaims.all (J.present p) && J.expNotPast v now p &&
    issAccepted v p && audAccepted v p

/-- Documented behaviour of the crate: `decode` succeeds exactly when the header algorithm is the
validation algorithm, the signature verifies, the payload deserialises and the registered claims
are accepted; a NumericDate that is a non-negative integer reads as itself. -/
structure Documented : Prop where
  decode_ok : ∀ {α : Type} (deserialize : Json → Option α) (now : Nat) (token : String)
    (key : J.DecodingKey) (v : Validation) (c : α),
    J.decode deserialize now token key v = .ok c ↔
      ∃ h p, J.decodeHeader token = some h ∧ h.alg = v.algorithm ∧
        J.verify token key h.alg = true ∧ J.payload token = some p ∧
        J.accepts v now p = true ∧ deserialize p = some c
  numericDate_int : ∀ n : Nat, J.numericDate (.int n) = some n

/-! ## A table of tokens that satisfies the documentation -/

/-- A token with its parts, and the secret that signed it. -/
structure Signed where
  token : String
  header : Header
  payload : Json
  secret : String

/-- The first failing check of a well-formed token. -/
def refusal (h : Header) (verified : Bool) (v : Validation) (now : Nat) (p : Json) : ErrorKind :=
  if h.alg ≠ v.algorithm then .invalidAlgorithm
  else if !verified then .invalidSignature
  else if !v.requiredSpecClaims.all (J.present p) then .missingRequiredClaim "exp"
  else if !J.expNotPast v now p then .expiredSignature
  else if !issAccepted v p then .invalidIssuer
  else if !audAccepted v p then .invalidAudience
  else .json

/-- `decode` as documented, over the other functions of `J`. -/
def documentedDecode {α : Type} (deserialize : Json → Option α) (now : Nat) (token : String)
    (key : J.DecodingKey) (v : Validation) : Except ErrorKind α :=
  match J.decodeHeader token, J.payload token with
  | some h, some p =>
    if h.alg = v.algorithm ∧ J.verify token key h.alg = true ∧ J.accepts v now p = true then
      match deserialize p with
      | some c => .ok c
      | none => .error .json
    else .error (J.refusal h (J.verify token key h.alg) v now p)
  | _, _ => .error .invalidToken

theorem documentedDecode_ok {α : Type} {deserialize : Json → Option α} {now : Nat} {token : String}
    {key : J.DecodingKey} {v : Validation} {c : α} :
    J.documentedDecode deserialize now token key v = .ok c ↔
      ∃ h p, J.decodeHeader token = some h ∧ h.alg = v.algorithm ∧
        J.verify token key h.alg = true ∧ J.payload token = some p ∧
        J.accepts v now p = true ∧ deserialize p = some c := by
  unfold documentedDecode
  cases J.decodeHeader token with
  | none => simp
  | some h =>
    cases J.payload token with
    | none => simp
    | some p =>
      by_cases hall : h.alg = v.algorithm ∧ J.verify token key h.alg = true ∧ J.accepts v now p = true
      · obtain ⟨halg, hv, ha⟩ := hall
        simp only [halg] at hv
        cases hd : deserialize p <;> simp [halg, hv, ha, hd]
      · simp only [hall, if_false]
        constructor
        · intro h
          cases h
        · intro h
          obtain ⟨h', p', hh, halg, hv, hp, ha, -⟩ := h
          cases hh
          cases hp
          exact absurd ⟨halg, hv, ha⟩ hall

/-- The crate at known tokens: keys are shared secrets, and every other token is malformed. -/
def known (table : List Signed) : JsonWebToken :=
  let crate : JsonWebToken :=
    { DecodingKey := String
      decodeHeader token := (table.find? (·.token = token)).map (·.header)
      fromSecret secret := secret
      fromRsaPem _ := none
      fromEcPem _ := none
      fromEdPem _ := none
      fromJwk _ := none
      verify token key algorithm :=
        table.any fun s => s.token = token ∧ s.secret = key ∧ s.header.alg = algorithm
      payload token := (table.find? (·.token = token)).map (·.payload)
      numericDate
        | .int n => if 0 ≤ n then some n.toNat else none
        | _ => none
      decode _ _ _ _ _ := .error .invalidToken }
  { crate with decode := crate.documentedDecode }

theorem known_header (s : Signed) : (known [s]).decodeHeader s.token = some s.header := by
  simp [known]

theorem known_payload (s : Signed) : (known [s]).payload s.token = some s.payload := by
  simp [known]

theorem known_verify (s : Signed) :
    (known [s]).verify s.token ((known [s]).fromSecret s.secret) s.header.alg = true := by
  simp [known]

theorem known_documented (table : List Signed) : (known table).Documented where
  decode_ok _ _ _ _ _ _ := documentedDecode_ok (known table)
  numericDate_int n := by simp [known]

end JsonWebToken

end Authzoo
