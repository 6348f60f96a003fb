import Authzoo.Jwt

/-!
# Authzoo.Config

Role configuration (`config.rs`), the error type (`error.rs`) and decoded claims (`claims.rs`):
what a role requires, when a configuration is refused, and how a requirement is matched against a
token's claims.
-/

namespace Authzoo

structure DetailedClaimRequirement where
  anyOf : List String
  deriving DecidableEq

/-- Requires an array claim with an element exactly equal to `contains`. -/
structure ContainsClaimRequirement where
  contains : String
  deriving DecidableEq

inductive ClaimRequirement where
  | equals (value : String)
  | anyOf (values : List String)
  | detailed (requirement : DetailedClaimRequirement)
  | contains (requirement : ContainsClaimRequirement)
  deriving DecidableEq

inductive JwtAlgorithm where
  | hs256 | hs384 | hs512
  | rs256 | rs384 | rs512
  | ps256 | ps384 | ps512
  | es256 | es384
  | edDsa
  deriving DecidableEq

def JwtAlgorithm.toAlgorithm : JwtAlgorithm → Algorithm
  | .hs256 => .hs256 | .hs384 => .hs384 | .hs512 => .hs512
  | .rs256 => .rs256 | .rs384 => .rs384 | .rs512 => .rs512
  | .ps256 => .ps256 | .ps384 => .ps384 | .ps512 => .ps512
  | .es256 => .es256 | .es384 => .es384
  | .edDsa => .edDsa

def defaultAlgorithms : List JwtAlgorithm := [.rs256, .es256]

structure RoleConfig where
  name : String
  audience : String
  issuer : String
  validationKey : Option String
  algorithms : List JwtAlgorithm
  claims : BTreeMap String ClaimRequirement

structure Config where
  roles : List RoleConfig

/-- `other` carries the text of the outermost `anyhow` context. -/
inductive AuthzooError where
  | emptyRoleName
  | emptyAudience (role : String)
  | emptyIssuer (role : String)
  | emptyValidationKey (role : String)
  | emptyAlgorithms (role : String)
  | emptyClaimName (role : String)
  | emptyClaimRequirement (role claim : String)
  | duplicateRole (role : String)
  | unknownRole (role : String)
  | algorithmNotAllowed (role : String) (algorithm : Algorithm)
  | tokenValidation (role : String) (source : ErrorKind)
  | missingClaim (claim : String) (requirement : ClaimRequirement)
  | other (context : String)
  deriving DecidableEq

/-! ## Checking a configuration -/

namespace ClaimRequirement

def isEmpty : ClaimRequirement → Bool
  | .equals value => value.isEmpty
  | .anyOf values => values.isEmpty || values.any String.isEmpty
  | .detailed requirement => requirement.anyOf.isEmpty || requirement.anyOf.any String.isEmpty
  | .contains requirement => requirement.contains.isEmpty

def validate (requirement : ClaimRequirement) (role claim : String) : Except AuthzooError Unit :=
  if requirement.isEmpty then .error (.emptyClaimRequirement role claim) else .ok ()

/-- Matches a string-valued claim; a `contains` requirement never matches here. -/
def matchesStr (requirement : ClaimRequirement) (value : Option String) : Bool :=
  match requirement with
  | .equals required => value = some required
  | .anyOf required => required.any fun required => value = some required
  | .detailed required => required.anyOf.any fun required => value = some required
  | .contains _ => false

/-- Matches a claim of any JSON type. -/
def matchesValue (requirement : ClaimRequirement) (value : Option Json) : Bool :=
  match requirement with
  | .contains required =>
    match value.bind Json.asArray with
    | some elements => elements.any fun element => element.asStr = some required.contains
    | none => false
  | other => other.matchesStr (value.bind Json.asStr)

end ClaimRequirement

namespace RoleConfig

/-- The loop over `self.claims`, in key order. -/
def validateClaims (role : String) : List (String × ClaimRequirement) → Except AuthzooError Unit
  | [] => .ok ()
  | (claim, requirement) :: rest =>
    if claim.isEmpty then .error (.emptyClaimName role)
    else
      match requirement.validate role claim with
      | .error e => .error e
      | .ok () => validateClaims role rest

def validate (role : RoleConfig) : Except AuthzooError Unit :=
  if role.name.isEmpty then .error .emptyRoleName
  else if role.audience.isEmpty then .error (.emptyAudience role.name)
  else if role.issuer.isEmpty then .error (.emptyIssuer role.name)
  else if role.validationKey = some "" then .error (.emptyValidationKey role.name)
  else if role.algorithms.isEmpty then .error (.emptyAlgorithms role.name)
  else validateClaims role.name role.claims.toList

def allowsAlgorithm (role : RoleConfig) (algorithm : Algorithm) : Bool :=
  role.algorithms.any fun allowed => allowed.toAlgorithm = algorithm

end RoleConfig

/-! ## Decoded claims -/

structure ValidatedClaims where
  sub : String
  claims : BTreeMap String Json

namespace ValidatedClaims

/-- The derived decoder: `sub` is a string that occurs once, every other member is collected in
the flattened map, where a repeated name keeps its last value. -/
def deserialize : Json → Option ValidatedClaims
  | .obj members =>
    match members.filter (·.1 = "sub") with
    | [(_, .str sub)] => some ⟨sub, .ofList (members.filter (·.1 ≠ "sub"))⟩
    | _ => none
  | _ => none

def claimValue (self : ValidatedClaims) (claimName : String) : Option String :=
  if claimName = "sub" then some self.sub else (self.claims[claimName]?).bind Json.asStr

def satisfies (self : ValidatedClaims) (claimName : String) (requirement : ClaimRequirement) :
    Bool :=
  if claimName = "sub" then requirement.matchesStr (some self.sub)
  else requirement.matchesValue self.claims[claimName]?

def firstMissingRequiredClaim (self : ValidatedClaims)
    (requiredClaims : BTreeMap String ClaimRequirement) : Option (String × ClaimRequirement) :=
  requiredClaims.toList.find? fun (claimName, requirement) => !self.satisfies claimName requirement

def requireClaims (self : ValidatedClaims) (requiredClaims : BTreeMap String ClaimRequirement) :
    Except AuthzooError Unit :=
  match self.firstMissingRequiredClaim requiredClaims with
  | some (claim, requirement) => .error (.missingClaim claim requirement)
  | none => .ok ()

end ValidatedClaims

end Authzoo
