import Authzoo.Tree

/-!
# Authzoo.ConfigTree

Configuration as a data tree (`config.rs`): what the derived `Serialize` writes for a `Config` and
what the derived `Deserialize` makes of a tree.

* `ClaimRequirement.ofJson_iff` : the trees that are read as a requirement, form by form.
* `config_round_trip` : a written configuration is read back as it was.

The forms of an untagged enum are tried in declaration order.
-/

namespace Authzoo

/-! ## Writing and reading -/

namespace JwtAlgorithm

def variants : List JwtAlgorithm :=
  [.hs256, .hs384, .hs512, .rs256, .rs384, .rs512, .ps256, .ps384, .ps512, .es256, .es384, .edDsa]

/-- The names that `serde(rename)` gives. -/
def rename : JwtAlgorithm → String
  | .hs256 => "HS256" | .hs384 => "HS384" | .hs512 => "HS512"
  | .rs256 => "RS256" | .rs384 => "RS384" | .rs512 => "RS512"
  | .ps256 => "PS256" | .ps384 => "PS384" | .ps512 => "PS512"
  | .es256 => "ES256" | .es384 => "ES384"
  | .edDsa => "EdDSA"

def toJson (algorithm : JwtAlgorithm) : Json := .str algorithm.rename

/-- The name of a variant, as a text or as the only member with a null value. -/
def ofJson : Json → Option JwtAlgorithm
  | .str name | .obj [(name, .null)] => variants.find? (·.rename = name)
  | _ => none

end JwtAlgorithm

def DetailedClaimRequirement.toJson (requirement : DetailedClaimRequirement) : Json :=
  .obj [("any-of", .arr (requirement.anyOf.map .str))]

def DetailedClaimRequirement.ofJson (json : Json) : Option DetailedClaimRequirement := do
  let members ← json.members ["any-of"] 1
  let anyOf ← (members.lookup "any-of").bind (Json.list Json.asStr)
  return { anyOf }

def ContainsClaimRequirement.toJson (requirement : ContainsClaimRequirement) : Json :=
  .obj [("contains", .str requirement.contains)]

def ContainsClaimRequirement.ofJson (json : Json) : Option ContainsClaimRequirement := do
  let members ← json.members ["contains"] 1
  let contains ← (members.lookup "contains").bind Json.asStr
  return { contains }

namespace ClaimRequirement

def toJson : ClaimRequirement → Json
  | .equals value => .str value
  | .anyOf values => .arr (values.map .str)
  | .detailed requirement => requirement.toJson
  | .contains requirement => requirement.toJson

def ofJson (json : Json) : Option ClaimRequirement :=
  (json.asStr.map equals).or (((json.list Json.asStr).map anyOf).or
    (((DetailedClaimRequirement.ofJson json).map detailed).or
      ((ContainsClaimRequirement.ofJson json).map contains)))

end ClaimRequirement

namespace RoleConfig

def fields : List String :=
  ["name", "audience", "issuer", "validation-key", "algorithms", "claims"]

/-- An `Option` field that is `None` is written as null, or left out by a format without null. -/
def validationKeyMember (nulls : Bool) : Option String → List (String × Json)
  | some validationKey => [("validation-key", .str validationKey)]
  | none => if nulls then [("validation-key", .null)] else []

def members (nulls : Bool) (role : RoleConfig) : List (String × Json) :=
  [("name", .str role.name), ("audience", .str role.audience), ("issuer", .str role.issuer)] ++
    validationKeyMember nulls role.validationKey ++
    [("algorithms", .arr (role.algorithms.map JwtAlgorithm.toJson)),
      ("claims", .obj (role.claims.toList.map fun (claim, requirement) =>
        (claim, requirement.toJson)))]

def toJson (nulls : Bool) (role : RoleConfig) : Json := .obj (role.members nulls)

def ofJson (json : Json) : Option RoleConfig := do
  let members ← json.members fields 4
  let name ← (members.lookup "name").bind Json.asStr
  let audience ← (members.lookup "audience").bind Json.asStr
  let issuer ← (members.lookup "issuer").bind Json.asStr
  let validationKey ← Json.nullable Json.asStr (members.lookup "validation-key")
  let algorithms ← (members.lookup "algorithms").elim (some defaultAlgorithms)
    (Json.list JwtAlgorithm.ofJson)
  let claims ← (members.lookup "claims").elim (some ∅) (Json.btreeMap ClaimRequirement.ofJson)
  return { name, audience, issuer, validationKey, algorithms, claims }

end RoleConfig

namespace Config

def toJson (nulls : Bool) (config : Config) : Json :=
  .obj [("role", .arr (config.roles.map (RoleConfig.toJson nulls)))]

def ofJson (json : Json) : Option Config := do
  let members ← json.members ["role"] 0
  let roles ← (members.lookup "role").elim (some []) (Json.list RoleConfig.ofJson)
  return { roles }

end Config

/-! ## Requirements -/

theorem DetailedClaimRequirement.ofJson_iff {json : Json} {requirement : DetailedClaimRequirement} :
    ofJson json = some requirement ↔
      json = requirement.toJson ∨ json = .arr [.arr (requirement.anyOf.map .str)] := by
  obtain ⟨anyOf⟩ := requirement
  rw [toJson, ← Json.field_single Json.list_asStr]
  simp [ofJson, bind, Option.bind_eq_some_iff]

theorem ContainsClaimRequirement.ofJson_iff {json : Json} {requirement : ContainsClaimRequirement} :
    ofJson json = some requirement ↔
      json = requirement.toJson ∨ json = .arr [.str requirement.contains] := by
  obtain ⟨contains⟩ := requirement
  rw [toJson, ← Json.field_single Json.asStr_eq_some]
  simp [ofJson, bind, Option.bind_eq_some_iff]

namespace ClaimRequirement

/-- What is read as a requirement is the requirement as it is written, or the sequence that a
`Detailed` form may be read from. A sequence for a `Contains` form is taken by `AnyOf` before. -/
theorem ofJson_iff {json : Json} {requirement : ClaimRequirement} :
    ofJson json = some requirement ↔ json = requirement.toJson ∨
      ∃ values, requirement = .detailed ⟨values⟩ ∧ json = .arr [.arr (values.map .str)] := by
  simp only [ofJson, Option.or_eq_some_iff, Option.map_eq_some_iff, Option.map_eq_none_iff,
    Json.asStr_eq_some, Json.list_asStr, DetailedClaimRequirement.ofJson_iff,
    ContainsClaimRequirement.ofJson_iff]
  constructor
  · rintro (⟨value, rfl, rfl⟩ | ⟨-, ⟨values, rfl, rfl⟩ | ⟨hlist, ⟨detailed, hjson, rfl⟩ |
      ⟨-, contains, rfl | rfl, rfl⟩⟩⟩)
    · exact .inl rfl
    · exact .inl rfl
    · exact hjson.imp id fun hjson => ⟨detailed.anyOf, rfl, hjson⟩
    · exact .inl rfl
    · have hlisted : Json.list Json.asStr (.arr [.str contains.contains]) = some [contains.contains] :=
        Json.list_asStr.mpr rfl
      rw [hlist] at hlisted
      cases hlisted
  · rintro (rfl | ⟨values, rfl, rfl⟩)
    · cases requirement with
      | equals value => exact .inl ⟨value, rfl, rfl⟩
      | anyOf values => exact .inr ⟨rfl, .inl ⟨values, rfl, rfl⟩⟩
      | detailed requirement => exact .inr ⟨rfl, .inr ⟨rfl, .inl ⟨requirement, .inl rfl, rfl⟩⟩⟩
      | contains requirement =>
        refine .inr ⟨rfl, .inr ⟨rfl, .inr ⟨?_, requirement, .inl rfl, rfl⟩⟩⟩
        rfl
    · refine .inr ⟨rfl, .inr ⟨?_, .inl ⟨⟨values⟩, .inr rfl, rfl⟩⟩⟩
      rfl

-- As the only form, `Contains` would take this sequence.
example : ContainsClaimRequirement.ofJson (.arr [.str "admins"]) = some ⟨"admins"⟩ ∧
    ofJson (.arr [.str "admins"]) = some (.anyOf ["admins"]) := ⟨rfl, rfl⟩

def codec : Codec Json ClaimRequirement := ⟨toJson, ofJson, fun _ => ofJson_iff.mpr (.inl rfl)⟩

end ClaimRequirement

/-! ## Configurations -/

theorem JwtAlgorithm.ofJson_toJson (algorithm : JwtAlgorithm) :
    ofJson algorithm.toJson = some algorithm := by
  cases algorithm <;> decide

def JwtAlgorithm.codec : Codec Json JwtAlgorithm := ⟨toJson, ofJson, ofJson_toJson⟩

namespace RoleConfig

/-- Whether and how a missing key is written, a role is read from its lists and claims. -/
theorem ofJson_members (nulls : Bool) (role : RoleConfig) : ofJson (role.toJson nulls) =
    (Json.list JwtAlgorithm.ofJson (.arr (role.algorithms.map JwtAlgorithm.toJson))).bind
      fun algorithms => (Json.btreeMap ClaimRequirement.ofJson (.obj (role.claims.toList.map
        fun (claim, requirement) => (claim, requirement.toJson)))).bind
          fun claims => some { role with algorithms, claims } := by
  obtain ⟨name, audience, issuer, validationKey, algorithms, claims⟩ := role
  cases validationKey with
  | some validationKey => rfl
  | none => cases nulls <;> rfl

theorem ofJson_toJson (nulls : Bool) (role : RoleConfig) :
    ofJson (role.toJson nulls) = some role := by
  have halgorithms := Json.list_encode JwtAlgorithm.codec role.algorithms
  have hclaims := Json.btreeMap_encode ClaimRequirement.codec role.claims
  rw [JwtAlgorithm.codec] at halgorithms
  rw [ClaimRequirement.codec] at hclaims
  rw [ofJson_members, halgorithms, Option.bind_some, hclaims, Option.bind_some]

def codec (nulls : Bool) : Codec Json RoleConfig := ⟨toJson nulls, ofJson, ofJson_toJson nulls⟩

end RoleConfig

theorem Config.ofJson_toJson (nulls : Bool) (config : Config) :
    ofJson (config.toJson nulls) = some config := by
  have hroles := Json.list_encode (RoleConfig.codec nulls) config.roles
  rw [RoleConfig.codec] at hroles
  have hread : ofJson (config.toJson nulls) =
      (Json.list RoleConfig.ofJson (.arr (config.roles.map (RoleConfig.toJson nulls)))).bind
        fun roles => some { roles } := rfl
  rw [hread, hroles, Option.bind_some]

/-- **A configuration survives being written and read.** Whatever a format does with missing keys,
a written configuration is read back as it was; and no tree is written for two requirements, nor
read as another one than it was written for. -/
theorem config_round_trip :
    (∀ (nulls : Bool) (config : Config), Config.ofJson (config.toJson nulls) = some config) ∧
    (∀ requirement : ClaimRequirement,
      ClaimRequirement.ofJson requirement.toJson = some requirement) ∧
    ∀ requirement requirement' : ClaimRequirement,
      requirement.toJson = requirement'.toJson → requirement = requirement' :=
  ⟨Config.ofJson_toJson, ClaimRequirement.codec.decode_encode,
    fun _ _ => ClaimRequirement.codec.encode_inj⟩

end Authzoo
