import Authzoo.Lib.Outcome
import Authzoo.Transparency

/-!
# Authzoo.Effects

What a validation reads and requests outside the process, in order, beside each function of the
model: the service account's files, and `GET` requests with the client that sends them. The client
follows redirects, which are part of the `GET` that they answer.

* `effects_complete` : nothing is left out. Two environments that agree on the effects of a call give
  the same answer and the same cache.
* `effects_confined` : over any history of calls, each effect is of a role that discovers its key,
  for a token whose algorithm the role allows. Requests go to the issuer's well-known document or to
  the URI that this document names, and the credentials of the service account to no other issuer
  than the two aliases of the cluster.
-/

namespace Authzoo

inductive Effect where
  | read (path : String)
  | readToString (path : String)
  | get (client : DiscoveryClient) (url : String)
  deriving DecidableEq

/-- Both environments answer this effect alike. -/
def Environment.SameAt (env env' : Environment) : Effect → Prop
  | .read path => env'.read path = env.read path
  | .readToString path => env'.readToString path = env.readToString path
  | .get client url => env'.openidConfiguration client url = env.openidConfiguration client url ∧
      env'.jwks client url = env.jwks client url

/-- Both environments have the same libraries. -/
structure Environment.SameCrates (env env' : Environment) : Prop where
  certificateParses : env'.certificateParses = env.certificateParses
  headerValueValid : env'.headerValueValid = env.headerValueValid
  clientBuilds : env'.clientBuilds = env.clientBuilds

def openidConfigurationUrl (role : RoleConfig) : String :=
  Text.trimEndMatches (· = '/') role.issuer ++ "/.well-known/openid-configuration"

section

variable (J : JsonWebToken) (env : Environment)

/-- Of `discovery_client`. -/
def clientEffects (role : RoleConfig) : List Effect :=
  if isKubernetesServiceIssuer role.issuer then
    .read kubernetesCaCertPath ::
      match addRootCertificate env ⟨none, none⟩ with
      | .error _ => []
      | .ok _ => [.readToString kubernetesTokenPath]
  else []

/-- Of `discovery_decoding_key` from the cache lookup on. -/
def jwksEffects (found : Located) (algorithm : Algorithm) (w : World) : List Effect :=
  match (cachedJwksKey w.keyCache (.new found.jwksUri found.kid algorithm) algorithm w.now).1 with
  | some _ => []
  | none => [.get found.client found.jwksUri]

/-- Of `discovery_decoding_key`. -/
def discoveryEffects (role : RoleConfig) (token : String) (algorithm : Algorithm) (w : World) :
    List Effect :=
  match J.decodeHeader token with
  | none => []
  | some _ =>
    clientEffects env role ++
      match discoveryClient env role with
      | .error _ => []
      | .ok client =>
        .get client (openidConfigurationUrl role) ::
          match locateJwks J env role token with
          | .error _ => []
          | .ok found => jwksEffects found algorithm w

/-- Of `validate_token_for_role`. -/
def tokenEffects (role : RoleConfig) (token : String) (w : World) : List Effect :=
  match J.decodeHeader token, role.validationKey with
  | some header, none =>
    if role.allowsAlgorithm header.alg then discoveryEffects J env role token header.alg w else []
  | _, _ => []

variable (now : Nat)

namespace TokenValidator

def roleEffects (self : TokenValidator) (roleName token : String) (w : World) : List Effect :=
  match self.roles[roleName]? with
  | none => []
  | some role => tokenEffects J env role token w

def rolesEffects (token : String) : List (String × RoleConfig) → World → List Effect
  | [], _ => []
  | (_, role) :: roles, w =>
    tokenEffects J env role token w ++
      rolesEffects token roles (validateTokenForRole J env now role token w).2

def effects (self : TokenValidator) (token : String) (w : World) : List Effect :=
  rolesEffects J env now token self.roles.toList w

end TokenValidator

end

def Call.effects (J : JsonWebToken) (w : World) (call : Call) : List Effect :=
  match call.roleName with
  | some roleName => call.validator.roleEffects J call.env roleName call.token w
  | none => call.validator.effects J call.env call.now call.token w

def historyEffects (J : JsonWebToken) : List Call → World → List Effect
  | [], _ => []
  | call :: history, w => call.effects J w ++ historyEffects J history (call.run J w)

/-! ## Nothing is left out -/

section

variable {J : JsonWebToken} {env env' : Environment}

theorem client_congr (hcrates : env.SameCrates env') {role : RoleConfig}
    (h : ∀ x ∈ clientEffects env role, env.SameAt env' x) :
    discoveryClient env' role = discoveryClient env role ∧
      clientEffects env' role = clientEffects env role := by
  unfold discoveryClient clientEffects configureInClusterClient at *
  by_cases hkubernetes : isKubernetesServiceIssuer role.issuer = true
  · simp only [hkubernetes, if_true, List.forall_mem_cons] at h ⊢
    have hroot : addRootCertificate env' = addRootCertificate env := by
      funext builder
      simp only [addRootCertificate, hcrates.certificateParses, show env'.read _ = _ from h.1]
    rw [hroot, hcrates.clientBuilds]
    cases hbuilder : addRootCertificate env ⟨none, none⟩ with
    | error e => simp [bind, Except.bind]
    | ok builder =>
      rw [hbuilder] at h
      have hfile : env'.readToString kubernetesTokenPath = env.readToString kubernetesTokenPath :=
        h.2 _ List.mem_cons_self
      have hauth : addAuthorization env' builder = addAuthorization env builder := by
        simp only [addAuthorization, hcrates.headerValueValid, hfile]
      simp [bind, Except.bind, hauth]
  · simp [hkubernetes, hcrates.clientBuilds]

theorem locate_congr {role : RoleConfig} (hclient : discoveryClient env' role = discoveryClient env role)
    (h : ∀ client, discoveryClient env role = .ok client →
      env'.openidConfiguration client (openidConfigurationUrl role) =
        env.openidConfiguration client (openidConfigurationUrl role)) (token : String) :
    locateJwks J env' role token = locateJwks J env role token := by
  unfold locateJwks
  rw [hclient]
  cases context "failed to decode token header for key discovery" (J.decodeHeader token) with
  | error e => rfl
  | ok header =>
    cases hbuilt : discoveryClient env role with
    | error e => rfl
    | ok client =>
      have hconfig := h client hbuilt
      rw [openidConfigurationUrl] at hconfig
      simp only [bind, Except.bind, hconfig]

/-- Past the lookup a discovery depends on the one document that it asks for. -/
theorem located_congr {role : RoleConfig} {token : String} {algorithm : Algorithm} {w : World}
    {found : Located} (hlocate : locateJwks J env role token = .ok found)
    (hlocate' : locateJwks J env' role token = .ok found)
    (h : ∀ x ∈ jwksEffects found algorithm w, env.SameAt env' x) :
    discoveryDecodingKey J env' role token algorithm w =
      discoveryDecodingKey J env role token algorithm w := by
  unfold jwksEffects at h
  cases hl : cachedJwksKey w.keyCache (.new found.jwksUri found.kid algorithm) algorithm w.now with
  | mk result cache =>
    rw [hl] at h
    cases result with
    | some jwk => rw [discovery_hit hlocate hl, discovery_hit hlocate' hl]
    | none =>
      have hfetch : fetchJwk env' found algorithm = fetchJwk env found algorithm := by
        simp only [fetchJwk, (h _ List.mem_cons_self).2]
      simp only [discoveryDecodingKey, hlocate, hlocate', hl, hfetch]

theorem discovery_congr (hcrates : env.SameCrates env') {role : RoleConfig} {token : String}
    {algorithm : Algorithm} {w : World}
    (h : ∀ x ∈ discoveryEffects J env role token algorithm w, env.SameAt env' x) :
    discoveryDecodingKey J env' role token algorithm w =
        discoveryDecodingKey J env role token algorithm w ∧
      discoveryEffects J env' role token algorithm w =
        discoveryEffects J env role token algorithm w := by
  unfold discoveryEffects at *
  cases hheader : J.decodeHeader token with
  | none => simp [discoveryDecodingKey, locateJwks, hheader, context, bind, Except.bind]
  | some header =>
    simp only [hheader, List.forall_mem_append] at h ⊢
    obtain ⟨hclient, hrest⟩ := h
    obtain ⟨hsame, heffects⟩ := client_congr hcrates hclient
    rw [hsame, heffects]
    cases hbuilt : discoveryClient env role with
    | error e =>
      have hlocate : locateJwks J env' role token = locateJwks J env role token :=
        locate_congr hsame (fun client h => by rw [hbuilt] at h; cases h) token
      have hunlocated : ∃ e, locateJwks J env role token = .error e := by
        simp [locateJwks, hheader, hbuilt, context, bind, Except.bind]
      obtain ⟨e, he⟩ := hunlocated
      rw [discovery_unlocated he, discovery_unlocated (hlocate.trans he)]
      exact ⟨rfl, rfl⟩
    | ok client =>
      rw [hbuilt] at hrest
      simp only [List.forall_mem_cons] at hrest
      obtain ⟨hget, hjwks⟩ := hrest
      have hlocate : locateJwks J env' role token = locateJwks J env role token := by
        refine locate_congr hsame (fun built h => ?_) token
        rw [hbuilt] at h
        cases h
        exact hget.1
      rw [hlocate]
      cases hfound : locateJwks J env role token with
      | error e =>
        rw [discovery_unlocated hfound, discovery_unlocated (hlocate.trans hfound)]
        exact ⟨rfl, rfl⟩
      | ok found =>
        rw [hfound] at hjwks
        exact ⟨located_congr hfound (hlocate.trans hfound) hjwks, rfl⟩

theorem token_congr (hcrates : env.SameCrates env') (now : Nat) {role : RoleConfig} {token : String}
    {w : World} (h : ∀ x ∈ tokenEffects J env role token w, env.SameAt env' x) :
    validateTokenForRole J env' now role token w = validateTokenForRole J env now role token w ∧
      tokenEffects J env' role token w = tokenEffects J env role token w := by
  unfold tokenEffects validateTokenForRole resolvingDecodingKey at *
  cases hheader : J.decodeHeader token with
  | none => simp
  | some header =>
    cases hkey : role.validationKey with
    | some validationKey => simp
    | none =>
      by_cases hallow : role.allowsAlgorithm header.alg = true
      · simp only [hheader, hkey, hallow, if_true] at h ⊢
        obtain ⟨hsame, heffects⟩ := discovery_congr hcrates h
        rw [hsame]
        exact ⟨rfl, heffects⟩
      · simp [hallow]

theorem roles_congr (hcrates : env.SameCrates env') (now : Nat) {token : String}
    (roles : List (String × RoleConfig)) :
    ∀ w : World, (∀ x ∈ TokenValidator.rolesEffects J env now token roles w, env.SameAt env' x) →
      TokenValidator.validateRoles J env' now token roles w =
          TokenValidator.validateRoles J env now token roles w ∧
        TokenValidator.rolesEffects J env' now token roles w =
          TokenValidator.rolesEffects J env now token roles w := by
  induction roles with
  | nil => exact fun _ _ => ⟨rfl, rfl⟩
  | cons head roles ih =>
    intro w h
    obtain ⟨name, role⟩ := head
    simp only [TokenValidator.rolesEffects, List.forall_mem_append] at h
    obtain ⟨hsame, heffects⟩ := token_congr hcrates now h.1
    simp only [TokenValidator.validateRoles, TokenValidator.rolesEffects, hsame, heffects]
    obtain ⟨hnames, hrest⟩ := ih _ h.2
    cases hv : validateTokenForRole J env now role token w with
    | mk result w' =>
      rw [hv] at hnames hrest
      cases result with
      | error e | ok c => exact ⟨by simp only [hnames], by simp only [hrest]⟩

end

/-- **Nothing is left out.** An environment that answers the effects of a call alike gives the call
the same answer and leaves the same cache and clock. -/
theorem effects_complete (J : JsonWebToken) (env env' : Environment) (hcrates : env.SameCrates env')
    (now : Nat) (v : TokenValidator) (token : String) (w : World) :
    (∀ roleName, (∀ x ∈ v.roleEffects J env roleName token w, env.SameAt env' x) →
      v.validateForRole J env' now roleName token w = v.validateForRole J env now roleName token w) ∧
    ((∀ x ∈ v.effects J env now token w, env.SameAt env' x) →
      v.validate J env' now token w = v.validate J env now token w) := by
  refine ⟨fun roleName h => ?_, fun h => (roles_congr hcrates now v.roles.toList w h).1⟩
  unfold TokenValidator.validateForRole
  unfold TokenValidator.roleEffects at h
  cases hrole : v.roles[roleName]? with
  | none => rfl
  | some role =>
    rw [hrole] at h
    exact (token_congr hcrates now h).1

def publishedUrls : List String :=
  ["https://issuer.example/.well-known/openid-configuration", "https://issuer.example/jwks"]

/-- Hosts that answer no other requests, and files that were not there. -/
def elsewhereEnvironment : Environment :=
  { publishingEnvironment with
    readToString := fun _ => some "account-token\n"
    openidConfiguration := fun client url =>
      if url ∈ publishedUrls then publishingEnvironment.openidConfiguration client url
      else .sendFailed
    jwks := fun client url =>
      if url ∈ publishedUrls then publishingEnvironment.jwks client url else .sendFailed }

theorem release_effects :
    discoveringValidator.roleEffects discoveringCrate publishingEnvironment "release"
        boundToken.token (World.start id) = publishedUrls.map (.get ⟨none, none⟩) ∧
    discoveringValidator.effects discoveringCrate publishingEnvironment 1700000000 boundToken.token
        (World.start id) = publishedUrls.map (.get ⟨none, none⟩) := by
  constructor <;> decide +kernel

/-- A role that discovers its key asks for two documents, and what else the hosts and the files say
changes nothing. -/
theorem effects_complete_elsewhere :
    discoveringValidator.validateForRole discoveringCrate elsewhereEnvironment 1700000000 "release"
        boundToken.token (World.start id) =
      discoveringValidator.validateForRole discoveringCrate publishingEnvironment 1700000000
        "release" boundToken.token (World.start id) ∧
    discoveringValidator.validate discoveringCrate elsewhereEnvironment 1700000000 boundToken.token
        (World.start id) =
      discoveringValidator.validate discoveringCrate publishingEnvironment 1700000000
        boundToken.token (World.start id) := by
  obtain ⟨hrole, hroles⟩ := effects_complete discoveringCrate publishingEnvironment
    elsewhereEnvironment ⟨rfl, rfl, rfl⟩ 1700000000 discoveringValidator boundToken.token
    (World.start id)
  have hsame : ∀ x ∈ publishedUrls.map (Effect.get ⟨none, none⟩),
      publishingEnvironment.SameAt elsewhereEnvironment x := by
    intro x hx
    obtain ⟨url, hurl, rfl⟩ := List.mem_map.mp hx
    exact ⟨if_pos hurl, if_pos hurl⟩
  refine ⟨hrole "release" ?_, hroles ?_⟩
  · rw [release_effects.1]
    exact hsame
  · rw [release_effects.2]
    exact hsame

/-! ## What an effect may be -/

/-- The client with which a discovery for the role sends its requests. -/
structure ClientOf (env : Environment) (role : RoleConfig) (client : DiscoveryClient) : Prop where
  plain : isKubernetesServiceIssuer role.issuer = false → client = ⟨none, none⟩
  rootCertificate : ∀ pem, client.rootCertificate = some pem →
    env.read kubernetesCaCertPath = some pem
  authorization : ∀ text, client.authorization = some text →
    ∃ file, env.readToString kubernetesTokenPath = some file ∧ text = "Bearer " ++ Text.trim file

/-- An effect of a discovery for the role. -/
def Effect.Of (env : Environment) (role : RoleConfig) : Effect → Prop
  | .read path => path = kubernetesCaCertPath ∧ isKubernetesServiceIssuer role.issuer = true
  | .readToString path => path = kubernetesTokenPath ∧ isKubernetesServiceIssuer role.issuer = true
  | .get client url => ClientOf env role client ∧ (url = openidConfigurationUrl role ∨
      env.openidConfiguration client (openidConfigurationUrl role) = .ok ⟨url⟩)

section

variable {J : JsonWebToken} {env : Environment}

theorem addRootCertificate_ok {builder client : DiscoveryClient}
    (h : addRootCertificate env builder = .ok client) :
    client = builder ∨ ∃ pem, env.read kubernetesCaCertPath = some pem ∧
      client = { builder with rootCertificate := some pem } := by
  unfold addRootCertificate at h
  split at h
  · exact Or.inl (Except.ok.inj h).symm
  · rename_i pem hread
    split at h
    · exact Or.inr ⟨pem, hread, (Except.ok.inj h).symm⟩
    · cases h

theorem addAuthorization_ok {builder client : DiscoveryClient}
    (h : addAuthorization env builder = .ok client) :
    client = builder ∨ ∃ file, env.readToString kubernetesTokenPath = some file ∧
      client = { builder with authorization := some ("Bearer " ++ Text.trim file) } := by
  unfold addAuthorization at h
  split at h
  · exact Or.inl (Except.ok.inj h).symm
  · rename_i file hread
    dsimp only at h
    split at h
    · exact Or.inl (Except.ok.inj h).symm
    · split at h
      · exact Or.inr ⟨file, hread, (Except.ok.inj h).symm⟩
      · cases h

theorem configured_of {client : DiscoveryClient}
    (h : configureInClusterClient env ⟨none, none⟩ = .ok client) :
    (∀ pem, client.rootCertificate = some pem → env.read kubernetesCaCertPath = some pem) ∧
      ∀ text, client.authorization = some text →
        ∃ file, env.readToString kubernetesTokenPath = some file ∧
          text = "Bearer " ++ Text.trim file := by
  obtain ⟨rooted, hroot, hauth⟩ := Outcome.bind_eq_ok.mp h
  have hrooted : rooted.authorization = none ∧ ∀ pem, rooted.rootCertificate = some pem →
      env.read kubernetesCaCertPath = some pem := by
    rcases addRootCertificate_ok hroot with rfl | ⟨pem, hread, rfl⟩
    · exact ⟨rfl, nofun⟩
    · refine ⟨rfl, ?_⟩
      rintro _ ⟨⟩
      exact hread
  rcases addAuthorization_ok hauth with rfl | ⟨file, hread, rfl⟩
  · refine ⟨hrooted.2, fun text htext => ?_⟩
    rw [hrooted.1] at htext
    cases htext
  · refine ⟨hrooted.2, ?_⟩
    rintro _ ⟨⟩
    exact ⟨file, hread, rfl⟩

theorem discoveryClient_of {role : RoleConfig} {client : DiscoveryClient}
    (h : discoveryClient env role = .ok client) : ClientOf env role client := by
  unfold discoveryClient at h
  by_cases hkubernetes : isKubernetesServiceIssuer role.issuer = true
  · simp only [hkubernetes, if_true, Outcome.bind_eq_ok] at h
    obtain ⟨built, hbuilt, hok⟩ := h
    split at hok
    · obtain rfl := Except.ok.inj hok
      obtain ⟨hroot, hauth⟩ := configured_of hbuilt
      exact ⟨fun hplain => absurd hkubernetes (by simp [hplain]), hroot, hauth⟩
    · cases hok
  · simp only [hkubernetes, bind, Except.bind, Bool.false_eq_true, if_false] at h
    split at h
    · obtain rfl := Except.ok.inj h
      exact ⟨fun _ => rfl, nofun, nofun⟩
    · cases h

/-- An effect of checking a token for the role. -/
structure Effect.Admitted (J : JsonWebToken) (env : Environment) (token : String) (role : RoleConfig)
    (x : Effect) : Prop where
  discovers : role.validationKey = none
  allowed : ∃ header, J.decodeHeader token = some header ∧ role.allowsAlgorithm header.alg = true
  effect : x.Of env role

theorem clientEffects_of {role : RoleConfig} {x : Effect} (h : x ∈ clientEffects env role) :
    x.Of env role := by
  unfold clientEffects at h
  split at h
  · rename_i hkubernetes
    cases h with
    | head => exact ⟨rfl, hkubernetes⟩
    | tail _ h =>
      split at h
      · cases h
      · obtain rfl := List.mem_singleton.mp h
        exact ⟨rfl, hkubernetes⟩
  · cases h

theorem locateJwks_of {role : RoleConfig} {token : String} {found : Located}
    (h : locateJwks J env role token = .ok found) :
    discoveryClient env role = .ok found.client ∧
      env.openidConfiguration found.client (openidConfigurationUrl role) = .ok ⟨found.jwksUri⟩ := by
  unfold locateJwks at h
  simp only [Outcome.bind_eq_ok] at h
  obtain ⟨header, -, client, hclient, config, hconfig, hok⟩ := h
  obtain rfl := Except.ok.inj hok
  refine ⟨hclient, ?_⟩
  rw [openidConfigurationUrl]
  cases hserved : env.openidConfiguration client
      (Text.trimEndMatches (· = '/') role.issuer ++ "/.well-known/openid-configuration") with
  | sendFailed | errorStatus | parseFailed =>
    rw [hserved] at hconfig
    cases hconfig
  | ok served =>
    rw [hserved] at hconfig
    cases hconfig
    rfl

theorem discoveryEffects_of {role : RoleConfig} {token : String} {algorithm : Algorithm} {w : World}
    {x : Effect} (h : x ∈ discoveryEffects J env role token algorithm w) : x.Of env role := by
  unfold discoveryEffects at h
  split at h
  · cases h
  · cases List.mem_append.mp h with
    | inl hclient => exact clientEffects_of hclient
    | inr hrest =>
      split at hrest
      · cases hrest
      · rename_i client hbuilt
        cases hrest with
        | head => exact ⟨discoveryClient_of hbuilt, Or.inl rfl⟩
        | tail _ hrest =>
          split at hrest
          · cases hrest
          · rename_i found hlocate
            unfold jwksEffects at hrest
            split at hrest
            · cases hrest
            · obtain rfl := List.mem_singleton.mp hrest
              obtain ⟨hclient, hconfig⟩ := locateJwks_of hlocate
              exact ⟨discoveryClient_of hclient, Or.inr hconfig⟩

theorem tokenEffects_admitted {role : RoleConfig} {token : String} {w : World} {x : Effect}
    (h : x ∈ tokenEffects J env role token w) : x.Admitted J env token role := by
  unfold tokenEffects at h
  split at h
  · rename_i header hheader hkey
    split at h
    · rename_i hallow
      exact ⟨hkey, ⟨header, hheader, hallow⟩, discoveryEffects_of h⟩
    · cases h
  · cases h

theorem rolesEffects_admitted {now : Nat} {token : String} {roles : List (String × RoleConfig)}
    {w : World} {x : Effect} (h : x ∈ TokenValidator.rolesEffects J env now token roles w) :
    ∃ r ∈ roles, x.Admitted J env token r.2 := by
  induction roles generalizing w with
  | nil => cases h
  | cons head roles ih =>
    cases List.mem_append.mp h with
    | inl hhead => exact ⟨head, List.mem_cons_self, tokenEffects_admitted hhead⟩
    | inr hrest =>
      obtain ⟨r, hmem, hadmitted⟩ := ih hrest
      exact ⟨r, List.mem_cons_of_mem _ hmem, hadmitted⟩

end

theorem Call.effects_admitted {J : JsonWebToken} {w : World} {call : Call} {x : Effect}
    (h : x ∈ call.effects J w) :
    ∃ name role, call.validator.roles[name]? = some role ∧
      (∀ roleName, call.roleName = some roleName → name = roleName) ∧
      x.Admitted J call.env call.token role := by
  unfold Call.effects at h
  split at h
  · rename_i roleName hname
    unfold TokenValidator.roleEffects at h
    split at h
    · cases h
    · rename_i role hrole
      refine ⟨roleName, role, hrole, fun asked hasked => ?_, tokenEffects_admitted h⟩
      rw [hname] at hasked
      exact Option.some.inj hasked
  · rename_i hname
    obtain ⟨⟨name, role⟩, hmem, hadmitted⟩ := rolesEffects_admitted h
    refine ⟨name, role, Std.ExtTreeMap.mem_toList_iff_getElem?_eq_some.mp hmem, ?_, hadmitted⟩
    intro asked hasked
    rw [hname] at hasked
    cases hasked

theorem history_admitted {J : JsonWebToken} {history : List Call} {w : World} {x : Effect}
    (h : x ∈ historyEffects J history w) : ∃ call ∈ history, ∃ w', x ∈ call.effects J w' := by
  induction history generalizing w with
  | nil => cases h
  | cons call history ih =>
    cases List.mem_append.mp h with
    | inl hcall => exact ⟨call, List.mem_cons_self, w, hcall⟩
    | inr hrest =>
      obtain ⟨call', hmem, hx⟩ := ih hrest
      exact ⟨call', List.mem_cons_of_mem _ hmem, hx⟩

/-! ## Confinement -/

/-- The two documents of the cluster's own issuers. -/
def clusterDocuments : List String :=
  ["https://kubernetes.default.svc/.well-known/openid-configuration",
    "https://kubernetes.default.svc.cluster.local/.well-known/openid-configuration"]

theorem cluster_document {role : RoleConfig} (h : isKubernetesServiceIssuer role.issuer = true) :
    openidConfigurationUrl role ∈ clusterDocuments := by
  unfold isKubernetesServiceIssuer at h
  unfold openidConfigurationUrl
  generalize Text.trimEndMatches (· = '/') role.issuer = issuer at h
  simp only [kubernetesServiceHostAliases, kubernetesServiceHost, List.contains_cons,
    List.contains_nil, Bool.or_false, Bool.or_eq_true, beq_iff_eq] at h
  rcases h with rfl | rfl
  · exact List.mem_cons_self
  · exact List.mem_cons_of_mem _ List.mem_cons_self

/-- **Confined effects.** Over any history of calls, whatever the hosts answer, each effect belongs
to a call, and to a role of its validator that discovers its key and allows the token's algorithm.
Files are read for the cluster's own issuers only. A request goes to the issuer's well-known
document or to the URI that this document names, and if it carries the service account's token or
trusts the cluster's certificate, the document is one of the cluster's two. Where a host redirects
such a request to is not confined. -/
theorem effects_confined (J : JsonWebToken) (history : List Call) (w : World) (x : Effect)
    (h : x ∈ historyEffects J history w) :
    ∃ call ∈ history, ∃ name role, call.validator.roles[name]? = some role ∧
      (∀ roleName, call.roleName = some roleName → name = roleName) ∧ role.validationKey = none ∧
      (∃ header, J.decodeHeader call.token = some header ∧
        role.allowsAlgorithm header.alg = true) ∧
      match x with
      | .read path => path = kubernetesCaCertPath ∧ openidConfigurationUrl role ∈ clusterDocuments
      | .readToString path =>
        path = kubernetesTokenPath ∧ openidConfigurationUrl role ∈ clusterDocuments
      | .get client url =>
        (url = openidConfigurationUrl role ∨
          call.env.openidConfiguration client (openidConfigurationUrl role) = .ok ⟨url⟩) ∧
        (client ≠ ⟨none, none⟩ → openidConfigurationUrl role ∈ clusterDocuments) ∧
        ∀ text, client.authorization = some text →
          ∃ file, call.env.readToString kubernetesTokenPath = some file ∧
            text = "Bearer " ++ Text.trim file := by
  obtain ⟨call, hmem, w', hcall⟩ := history_admitted h
  obtain ⟨name, role, hrole, hname, hadmitted⟩ := call.effects_admitted hcall
  refine ⟨call, hmem, name, role, hrole, hname, hadmitted.discovers, hadmitted.allowed, ?_⟩
  have heffect := hadmitted.effect
  cases x with
  | read path | readToString path => exact ⟨heffect.1, cluster_document heffect.2⟩
  | get client url =>
    obtain ⟨hclient, hurl⟩ := heffect
    refine ⟨hurl, fun hne => cluster_document ?_, hclient.authorization⟩
    by_contra hplain
    exact hne (hclient.plain (by simpa using hplain))

/-! ## A role of the cluster -/

def clusterRole : RoleConfig := { discoveringRole with issuer := "https://kubernetes.default.svc" }

def clusterValidator : TokenValidator := TokenValidator.empty.add clusterRole (by decide)

def clusterEnvironment : Environment :=
  { publishingEnvironment with
    readToString := fun path => if path = kubernetesTokenPath then some "account-token\n" else none }

def clusterCall : Call :=
  { env := clusterEnvironment, now := 1700000000, validator := clusterValidator
    roleName := some "release", token := boundToken.token }

theorem clusterCall_effects : .get ⟨none, some "Bearer account-token"⟩
    "https://kubernetes.default.svc/.well-known/openid-configuration" ∈
      historyEffects discoveringCrate [clusterCall] (World.start id) := by
  have hrole : clusterValidator.roles["release"]? = some clusterRole :=
    TokenValidator.roles_add (by decide)
  have hheader : discoveringCrate.decodeHeader boundToken.token = some boundToken.header := by
    dsimp only [discoveringCrate]
    exact JsonWebToken.known_header boundToken
  have hclient : discoveryClient clusterEnvironment clusterRole =
      .ok ⟨none, some "Bearer account-token"⟩ := by decide +kernel
  have hurl : openidConfigurationUrl clusterRole =
      "https://kubernetes.default.svc/.well-known/openid-configuration" := by decide
  have hkey : clusterRole.validationKey = none := rfl
  have hallow : clusterRole.allowsAlgorithm boundToken.header.alg = true := by decide
  simp only [historyEffects, Call.effects, clusterCall, TokenValidator.roleEffects, hrole,
    tokenEffects, hkey, hallow, if_true, discoveryEffects, hheader, hclient, hurl, List.append_nil]
  exact List.mem_append_right _ List.mem_cons_self

/-- The service account's token is sent to the cluster's document. -/
theorem effects_confined_cluster :
    ∃ file, clusterEnvironment.readToString kubernetesTokenPath = some file ∧
      "Bearer account-token" = "Bearer " ++ Text.trim file := by
  obtain ⟨call, hmem, _, _, -, -, -, -, -, -, htoken⟩ :=
    effects_confined discoveringCrate [clusterCall] (World.start id) _ clusterCall_effects
  obtain rfl := List.mem_singleton.mp hmem
  exact htoken _ rfl

end Authzoo
