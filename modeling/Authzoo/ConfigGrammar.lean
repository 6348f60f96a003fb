import Authzoo.ConfigTree

/-!
# Authzoo.ConfigGrammar

Exactly the data trees that are read as a configuration (`config.rs`).

* `RoleConfig.IsForm`, `Config.IsForm` : the trees that say what a configuration has, as a grammar.
* `config_grammar` : those are the trees that are accepted. Nothing in an accepted tree is ignored but
  an earlier requirement of a claim that is written twice, and nothing is read into it but the
  documented defaults.
-/

namespace Authzoo

/-! ## The grammar -/

def JwtAlgorithm.IsForm (algorithm : JwtAlgorithm) (json : Json) : Prop :=
  json = .str algorithm.rename ∨ json = .obj [(algorithm.rename, .null)]

def ClaimRequirement.IsForm (requirement : ClaimRequirement) (json : Json) : Prop :=
  json = requirement.toJson ∨
    ∃ values, requirement = .detailed ⟨values⟩ ∧ json = .arr [.arr (values.map .str)]

namespace RoleConfig

inductive WrittenAlgorithms : List JwtAlgorithm → Option Json → Prop where
  | default : WrittenAlgorithms defaultAlgorithms none
  | listed {algorithms : List JwtAlgorithm} {xs : List Json}
      (h : List.Forall₂ (fun json algorithm => JwtAlgorithm.IsForm algorithm json) xs algorithms) :
    WrittenAlgorithms algorithms (some (.arr xs))

/-- Of a claim that is written twice the last requirement counts. -/
inductive WrittenClaims : BTreeMap String ClaimRequirement → Option Json → Prop where
  | default : WrittenClaims ∅ none
  | table {members : List (String × Json)} {entries : List (String × ClaimRequirement)}
      (h : List.Forall₂ (fun member entry => entry.1 = member.1 ∧
        ClaimRequirement.IsForm entry.2 member.2) members entries) :
    WrittenClaims (.ofList entries) (some (.obj members))

/-- The members of a role in declaration order. -/
def written (role : RoleConfig) (validationKey : List (String × Json))
    (algorithms claims : Option Json) : List (String × Json) :=
  [("name", .str role.name), ("audience", .str role.audience), ("issuer", .str role.issuer)] ++
    (validationKey ++ ((algorithms.map fun json => ("algorithms", json)).toList ++
      (claims.map fun json => ("claims", json)).toList))

/-- A table with the members in any order, or the values in declaration order. -/
inductive IsForm (role : RoleConfig) : Json → Prop where
  | table {members validationKey : List (String × Json)} {algorithms claims : Option Json}
      (hkey : Json.WrittenOption "validation-key" role.validationKey validationKey)
      (halgorithms : WrittenAlgorithms role.algorithms algorithms)
      (hclaims : WrittenClaims role.claims claims)
      (hperm : members.Perm (role.written validationKey algorithms claims)) :
    IsForm role (.obj members)
  | values {algorithms claims : Option Json} (halgorithms : WrittenAlgorithms role.algorithms algorithms)
      (hclaims : WrittenClaims role.claims claims) (hlast : algorithms = none → claims = none) :
    IsForm role (.arr ([.str role.name, .str role.audience, .str role.issuer,
      role.validationKey.elim .null .str] ++ (algorithms.toList ++ claims.toList)))

end RoleConfig

inductive Config.IsForm (config : Config) : Json → Prop where
  | empty (h : config.roles = []) : IsForm config (.obj [])
  | noValues (h : config.roles = []) : IsForm config (.arr [])
  | table {xs : List Json}
      (h : List.Forall₂ (fun json role => RoleConfig.IsForm role json) xs config.roles) :
    IsForm config (.obj [("role", .arr xs)])
  | values {xs : List Json}
      (h : List.Forall₂ (fun json role => RoleConfig.IsForm role json) xs config.roles) :
    IsForm config (.arr [.arr xs])

/-! ## Values -/

theorem JwtAlgorithm.ofJson_iff {json : Json} {algorithm : JwtAlgorithm} :
    ofJson json = some algorithm ↔ algorithm.IsForm json := by
  have hfind : ∀ name : String,
      variants.find? (·.rename = name) = some algorithm ↔ algorithm.rename = name := by
    intro name
    constructor
    · intro h
      simpa using List.find?_some h
    · rintro rfl
      exact ofJson_toJson algorithm
  unfold ofJson IsForm
  split
  · rw [hfind, Json.str.injEq, eq_comm]
    simp
  · rw [hfind]
    simp [eq_comm]
  · rename_i hstr hobj
    simp only [reduceCtorEq, false_iff, not_or]
    exact ⟨fun h => hstr _ h, fun h => hobj _ h⟩

theorem Json.list_iff {α : Type} {decode : Json → Option α} {json : Json} {as : List α} :
    Json.list decode json = some as ↔
      ∃ xs, json = .arr xs ∧ List.Forall₂ (fun x a => decode x = some a) xs as := by
  simp only [Json.list, Option.bind_eq_some_iff, Json.asArray_eq_some, Codec.mapM_iff]

namespace RoleConfig

theorem readAlgorithms_iff {found : Option Json} {algorithms : List JwtAlgorithm} :
    found.elim (some defaultAlgorithms) (Json.list JwtAlgorithm.ofJson) = some algorithms ↔
      WrittenAlgorithms algorithms found := by
  cases found with
  | none =>
    constructor
    · rintro ⟨⟩
      exact .default
    · intro h
      cases h
      rfl
  | some json =>
    simp only [Option.elim_some, Json.list_iff, JwtAlgorithm.ofJson_iff]
    constructor
    · rintro ⟨xs, rfl, h⟩
      exact .listed h
    · intro h
      cases h with
      | listed h => exact ⟨_, rfl, h⟩

theorem readClaims_iff {found : Option Json} {claims : BTreeMap String ClaimRequirement} :
    found.elim (some ∅) (Json.btreeMap ClaimRequirement.ofJson) = some claims ↔
      WrittenClaims claims found := by
  have hentry : ∀ (member : String × Json) (entry : String × ClaimRequirement),
      Codec.entry ClaimRequirement.ofJson member = some entry ↔
        entry.1 = member.1 ∧ entry.2.IsForm member.2 := by
    rintro ⟨key, json⟩ ⟨claim, requirement⟩
    simp only [Codec.entry, Option.map_eq_some_iff, Prod.mk.injEq, ClaimRequirement.ofJson_iff]
    constructor
    · rintro ⟨_, h, rfl, rfl⟩
      exact ⟨rfl, h⟩
    · rintro ⟨rfl, h⟩
      exact ⟨_, h, rfl, rfl⟩
  cases found with
  | none =>
    constructor
    · rintro ⟨⟩
      exact .default
    · intro h
      cases h
      rfl
  | some json =>
    rw [Option.elim_some]
    cases json with
    | obj members =>
      simp only [Json.btreeMap, Option.map_eq_some_iff, Codec.mapM_iff, hentry]
      constructor
      · rintro ⟨entries, h, rfl⟩
        exact .table h
      · intro h
        cases h with
        | table h => exact ⟨_, h, rfl⟩
    | _ =>
      constructor
      · rintro ⟨⟩
      · rintro ⟨⟩

/-! ## Roles -/

/-- The members say what the role has. -/
structure Tells (role : RoleConfig) (members : List (String × Json)) : Prop where
  name : members.lookup "name" = some (.str role.name)
  audience : members.lookup "audience" = some (.str role.audience)
  issuer : members.lookup "issuer" = some (.str role.issuer)
  validationKey : Json.nullable Json.asStr (members.lookup "validation-key") =
    some role.validationKey
  algorithms : WrittenAlgorithms role.algorithms (members.lookup "algorithms")
  claims : WrittenClaims role.claims (members.lookup "claims")

theorem ofJson_tells {json : Json} {role : RoleConfig} :
    ofJson json = some role ↔
      ∃ members, json.members fields 4 = some members ∧ role.Tells members := by
  obtain ⟨name, audience, issuer, validationKey, algorithms, claims⟩ := role
  simp only [ofJson, bind, Option.bind_eq_some_iff, Json.asStr_eq_some, readAlgorithms_iff,
    readClaims_iff, pure, Option.some.injEq, mk.injEq]
  refine exists_congr fun members => and_congr_right fun _ => ?_
  constructor
  · rintro ⟨_, ⟨_, hname, rfl⟩, _, ⟨_, haudience, rfl⟩, _, ⟨_, hissuer, rfl⟩, _, hkey, _, halgorithms, _,
      hclaims, rfl, rfl, rfl, rfl, rfl, rfl⟩
    exact ⟨hname, haudience, hissuer, hkey, halgorithms, hclaims⟩
  · rintro ⟨hname, haudience, hissuer, hkey, halgorithms, hclaims⟩
    exact ⟨_, ⟨_, hname, rfl⟩, _, ⟨_, haudience, rfl⟩, _, ⟨_, hissuer, rfl⟩, _, hkey, _, halgorithms, _,
      hclaims, rfl, rfl, rfl, rfl, rfl, rfl⟩

theorem fields_nodup : fields.Nodup := by decide

theorem written_names {role : RoleConfig} {validationKey : List (String × Json)}
    (hkey : Json.WrittenOption "validation-key" role.validationKey validationKey)
    (algorithms claims : Option Json) :
    ((role.written validationKey algorithms claims).map Prod.fst).Sublist fields := by
  have hoption : ∀ (field : String) (found : Option Json),
      ((found.map fun json => (field, json)).toList.map Prod.fst).Sublist [field] := by
    intro field found
    cases found with
    | none => exact List.nil_sublist _
    | some json => exact List.Sublist.refl _
  simp only [written, List.map_append]
  exact (List.Sublist.refl _).append (hkey.names.append ((hoption _ _).append (hoption _ _)))

theorem lookup_option {field name : String} {found : Option Json} :
    (found.map fun json => (field, json)).toList.lookup name =
      if name = field then found else none := by
  cases found with
  | none => simp
  | some json =>
    rw [Option.map_some, Option.toList_some, List.lookup_cons]
    by_cases h : name = field
    · rw [if_pos h, beq_iff_eq.mpr h]
    · rw [if_neg h, beq_false_of_ne h, List.lookup_nil]

theorem written_tells {role : RoleConfig} {validationKey : List (String × Json)}
    {algorithms claims : Option Json}
    (hkey : Json.WrittenOption "validation-key" role.validationKey validationKey)
    (halgorithms : WrittenAlgorithms role.algorithms algorithms)
    (hclaims : WrittenClaims role.claims claims) :
    role.Tells (role.written validationKey algorithms claims) where
  name := rfl
  audience := rfl
  issuer := rfl
  validationKey := by
    have hlookup : (role.written validationKey algorithms claims).lookup "validation-key" =
        validationKey.lookup "validation-key" := by
      simp (disch := decide) only [written, List.lookup_append, lookup_option, if_neg, Option.or_none]
      rfl
    rw [hlookup]
    exact hkey.read
  algorithms := by
    have hlookup : (role.written validationKey algorithms claims).lookup "algorithms" = algorithms := by
      simp (disch := decide) only [written, List.lookup_append, lookup_option, hkey.lookup_ne, if_neg,
        if_pos, Option.or_none]
      rfl
    rwa [hlookup]
  claims := by
    have hlookup : (role.written validationKey algorithms claims).lookup "claims" = claims := by
      simp (disch := decide) only [written, List.lookup_append, lookup_option, hkey.lookup_ne, if_neg,
        if_pos]
      rfl
    rwa [hlookup]

theorem Tells.congr {role : RoleConfig} {members members' : List (String × Json)}
    (h : role.Tells members') (hsame : ∀ field ∈ fields, members.lookup field = members'.lookup field) :
    role.Tells members := by
  simp only [fields, List.forall_mem_cons] at hsame
  obtain ⟨h₁, h₂, h₃, h₄, h₅, h₆, -⟩ := hsame
  exact ⟨h₁ ▸ h.name, h₂ ▸ h.audience, h₃ ▸ h.issuer, h₄ ▸ h.validationKey, h₅ ▸ h.algorithms,
    h₆ ▸ h.claims⟩

theorem Tells.present {role : RoleConfig} {members : List (String × Json)} (h : role.Tells members) :
    Json.present fields members = role.written
      ((members.lookup "validation-key").map fun json => ("validation-key", json)).toList
      (members.lookup "algorithms") (members.lookup "claims") := by
  rw [Json.present, List.filterMap_eq_flatMap_toList]
  simp only [fields, List.flatMap_cons, List.flatMap_nil, h.name, h.audience, h.issuer,
    List.append_nil]
  rfl

/-- The values of a role in declaration order, as members. -/
theorem tells_values {role : RoleConfig} {name audience issuer validationKey : Json}
    {algorithms claims : Option Json} (hlast : algorithms = none → claims = none) :
    role.Tells (fields.zip ([name, audience, issuer, validationKey] ++
      (algorithms.toList ++ claims.toList))) ↔
      name = .str role.name ∧ audience = .str role.audience ∧ issuer = .str role.issuer ∧
      validationKey = role.validationKey.elim .null .str ∧
      WrittenAlgorithms role.algorithms algorithms ∧ WrittenClaims role.claims claims := by
  generalize hmembers : fields.zip ([name, audience, issuer, validationKey] ++
    (algorithms.toList ++ claims.toList)) = members
  have hread : members.lookup "name" = some name ∧ members.lookup "audience" = some audience ∧
      members.lookup "issuer" = some issuer ∧
      members.lookup "validation-key" = some validationKey ∧
      members.lookup "algorithms" = algorithms ∧ members.lookup "claims" = claims := by
    rw [← hmembers]
    cases algorithms with
    | none =>
      rw [hlast rfl]
      exact ⟨rfl, rfl, rfl, rfl, rfl, rfl⟩
    | some json => cases claims <;> exact ⟨rfl, rfl, rfl, rfl, rfl, rfl⟩
  obtain ⟨hname, haudience, hissuer, hkey, halgorithms, hclaims⟩ := hread
  constructor
  · rintro ⟨h₁, h₂, h₃, h₄, h₅, h₆⟩
    rw [hname, Option.some.injEq] at h₁
    rw [haudience, Option.some.injEq] at h₂
    rw [hissuer, Option.some.injEq] at h₃
    rw [hkey, Json.nullable_some] at h₄
    rw [halgorithms] at h₅
    rw [hclaims] at h₆
    exact ⟨h₁, h₂, h₃, h₄, h₅, h₆⟩
  · rintro ⟨rfl, rfl, rfl, rfl, h₅, h₆⟩
    exact ⟨hname, haudience, hissuer, hkey ▸ Json.nullable_some.mpr rfl, halgorithms.symm ▸ h₅,
      hclaims.symm ▸ h₆⟩

/-- Four to six values. -/
theorem exists_values {xs : List Json} (hleast : 4 ≤ xs.length) (hmost : xs.length ≤ fields.length) :
    ∃ name audience issuer validationKey, ∃ algorithms claims : Option Json,
      xs = [name, audience, issuer, validationKey] ++ (algorithms.toList ++ claims.toList) ∧
        (algorithms = none → claims = none) := by
  rcases xs with _ | ⟨name, _ | ⟨audience, _ | ⟨issuer, _ | ⟨key, _ | ⟨algorithms, _ | ⟨claims, _ |
    ⟨more, xs⟩⟩⟩⟩⟩⟩⟩
  all_goals simp only [fields, List.length_cons, List.length_nil] at hleast hmost
  · omega
  · omega
  · omega
  · omega
  · exact ⟨name, audience, issuer, key, none, none, rfl, fun _ => rfl⟩
  · exact ⟨name, audience, issuer, key, some algorithms, none, rfl, fun _ => rfl⟩
  · exact ⟨name, audience, issuer, key, some algorithms, some claims, rfl, nofun⟩
  · omega

theorem IsForm.read {role : RoleConfig} {json : Json} (h : role.IsForm json) :
    ∃ members, json.members fields 4 = some members ∧ role.Tells members := by
  cases h with
  | @table members validationKey algorithms claims hkey halgorithms hclaims hperm =>
    have hnames := written_names hkey algorithms claims
    have hall : members.all (fields.contains ·.1) = true := List.all_eq_true.mpr fun m hm =>
      List.contains_iff_mem.mpr (hnames.subset (List.mem_map_of_mem (hperm.mem_iff.mp hm)))
    rw [← List.append_nil (role.written _ _ _)] at hperm
    obtain ⟨honce, hlookup⟩ := Json.unrepeated_perm hperm (fields_nodup.sublist hnames)
      fun _ h => absurd h List.not_mem_nil
    refine ⟨members, ?_, (written_tells hkey halgorithms hclaims).congr hlookup⟩
    rw [Json.members, if_pos (by rw [hall, honce]; rfl)]
  | @values algorithms claims halgorithms hclaims hlast =>
    refine ⟨_, if_pos ⟨?_, ?_⟩,
      (tells_values hlast).mpr ⟨rfl, rfl, rfl, rfl, halgorithms, hclaims⟩⟩
    · simp
    · cases algorithms <;> cases claims <;> simp [fields]

theorem ofJson_iff {json : Json} {role : RoleConfig} :
    ofJson json = some role ↔ role.IsForm json := by
  rw [ofJson_tells]
  refine ⟨?_, IsForm.read⟩
  rintro ⟨members, hmembers, h⟩
  cases json with
  | obj all =>
    simp only [Json.members, Option.ite_none_right_eq_some, Bool.and_eq_true,
      Option.some.injEq] at hmembers
    obtain ⟨⟨hknown, honce⟩, rfl⟩ := hmembers
    have hperm := Json.known_perm fields_nodup honce
    have hnone : all.filter (!fields.contains ·.1) = [] := by
      rw [List.filter_eq_nil_iff]
      intro m hm
      simpa using List.all_eq_true.mp hknown m hm
    rw [hnone, List.append_nil, h.present] at hperm
    exact .table (Json.nullable_iff.mp h.validationKey) h.algorithms h.claims hperm
  | arr xs =>
    simp only [Json.members, Option.ite_none_right_eq_some, Option.some.injEq] at hmembers
    obtain ⟨⟨hleast, hmost⟩, rfl⟩ := hmembers
    obtain ⟨name, audience, issuer, key, algorithms, claims, rfl, hlast⟩ := exists_values hleast hmost
    obtain ⟨rfl, rfl, rfl, rfl, halgorithms, hclaims⟩ := (tells_values hlast).mp h
    exact .values halgorithms hclaims hlast
  | _ => cases hmembers

end RoleConfig

/-! ## Configurations -/

theorem Config.readRoles_iff {json : Json} {roles : List RoleConfig} :
    json.list RoleConfig.ofJson = some roles ↔ ∃ xs, json = .arr xs ∧
      List.Forall₂ (fun json role => RoleConfig.IsForm role json) xs roles := by
  simp only [Json.list_iff, RoleConfig.ofJson_iff]

theorem Config.ofJson_iff {json : Json} {config : Config} :
    ofJson json = some config ↔ config.IsForm json := by
  obtain ⟨roles⟩ := config
  simp only [ofJson, bind, Option.bind_eq_some_iff, pure, Option.some.injEq, mk.injEq,
    exists_eq_right]
  constructor
  · rintro ⟨members, hmembers, hroles⟩
    rcases Json.members_default hmembers with ⟨hlookup, hjson⟩ | ⟨value, hlookup, hjson⟩
    · rw [hlookup] at hroles
      cases hroles
      rcases hjson with rfl | rfl
      · exact .empty rfl
      · exact .noValues rfl
    · rw [hlookup] at hroles
      obtain ⟨xs, rfl, h⟩ := Config.readRoles_iff.mp hroles
      rcases hjson with rfl | rfl
      · exact .table h
      · exact .values h
  · intro h
    cases h with
    | empty h => exact ⟨[], rfl, congrArg some h.symm⟩
    | noValues h => exact ⟨[], rfl, congrArg some h.symm⟩
    | table h => exact ⟨_, rfl, Config.readRoles_iff.mpr ⟨_, rfl, h⟩⟩
    | values h => exact ⟨_, rfl, Config.readRoles_iff.mpr ⟨_, rfl, h⟩⟩

theorem Config.exists_role {xs : List Json} {roles : List RoleConfig}
    (h : List.Forall₂ (fun json role => RoleConfig.IsForm role json) xs roles) {json : Json}
    (hin : json ∈ xs) : ∃ role, RoleConfig.IsForm role json := by
  induction h with
  | nil => cases hin
  | cons hform _ ih =>
    cases hin with
    | head => exact ⟨_, hform⟩
    | tail _ hin => exact ih hin

theorem RoleConfig.IsForm.fields_only {role : RoleConfig} {members : List (String × Json)}
    (h : role.IsForm (.obj members)) :
    (∀ m ∈ members, m.1 ∈ fields) ∧ Json.unrepeated fields (.obj members) = true := by
  obtain ⟨members', hmembers, -⟩ := h.read
  simp only [Json.members, Option.ite_none_right_eq_some, Bool.and_eq_true, List.all_eq_true,
    List.contains_iff_mem] at hmembers
  exact hmembers.1

/-- **The grammar of configurations.** A tree is read as a configuration exactly if it is a form of
it; a member of a role that is not one of its fields, or that repeats one, refuses the whole tree. -/
theorem config_grammar :
    (∀ (json : Json) (config : Config), Config.ofJson json = some config ↔ config.IsForm json) ∧
    ∀ (xs : List Json) (members : List (String × Json)), Json.obj members ∈ xs →
      (∃ m ∈ members, m.1 ∉ RoleConfig.fields) ∨
        Json.unrepeated RoleConfig.fields (.obj members) = false →
      Config.ofJson (.obj [("role", .arr xs)]) = none := by
  refine ⟨fun _ _ => Config.ofJson_iff, fun xs members hin hbad => ?_⟩
  cases hread : Config.ofJson (.obj [("role", .arr xs)]) with
  | none => rfl
  | some config =>
    have hform := Config.ofJson_iff.mp hread
    cases hform with
    | table h =>
      obtain ⟨role, hrole⟩ := Config.exists_role h hin
      obtain ⟨hknown, honce⟩ := hrole.fields_only
      rcases hbad with ⟨m, hm, hunknown⟩ | htwice
      · exact absurd (hknown m hm) hunknown
      · rw [htwice] at honce
        cases honce

end Authzoo
