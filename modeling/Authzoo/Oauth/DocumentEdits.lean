import Authzoo.Oauth.Document
import Mathlib.Logic.Relation

/-!
# Authzoo.Oauth.DocumentEdits

Metadata documents that advertise more than is asked for (`parse_document`).

* `Document.Richer` says what a document may have more than another one.
* `Document.check_richer` : a richer document is accepted for the same client.
* `ofJson_edit` : an edit of the tree makes the document richer.
* `extra_capabilities` : over any sequence of edits.
-/

namespace Authzoo.Oauth

/-! ## Richer documents -/

/-- A list that is there stays there and loses nothing. -/
inductive Widened : Option (List String) → Option (List String) → Prop
  | absent : Widened none none
  | listed {values values' : List String} (h : values ⊆ values') :
    Widened (some values) (some values')

namespace Document

structure Richer (doc doc' : Document) : Prop where
  applicationType : doc'.applicationType = doc.applicationType
  clientId : doc'.clientId = doc.clientId
  clientName : doc'.clientName = doc.clientName
  redirectUris : doc'.redirectUris = doc.redirectUris
  authMethod : doc'.tokenEndpointAuthMethod = doc.tokenEndpointAuthMethod ∨
    doc.tokenEndpointAuthMethodsSupported ≠ none
  authMethods : Widened doc.tokenEndpointAuthMethodsSupported doc'.tokenEndpointAuthMethodsSupported
  grantTypes : Widened doc.grantTypes doc'.grantTypes
  responseTypes : doc'.responseTypes = doc.responseTypes

end Document

theorem Widened.refl (values : Option (List String)) : Widened values values := by
  cases values with
  | none => exact .absent
  | some values => exact .listed (List.Subset.refl values)

/-- A value that is found in a list that must have it is found in the wider list. -/
theorem Widened.any {values values' : Option (List String)} (h : Widened values values')
    {p : String → Bool} (hp : ¬ values.any (!·.any p) = true) : ¬ values'.any (!·.any p) = true := by
  cases h with
  | absent => exact hp
  | listed hsubset =>
    simp only [Option.any_some, Bool.not_eq_true', Bool.not_eq_false, List.any_eq_true] at hp ⊢
    exact hp.imp fun value hvalue => ⟨hsubset hvalue.1, hvalue.2⟩

namespace Document

variable {U : UrlCrate} {id : String} {doc doc' : Document} {client : Client}

theorem Richer.keeps_none (h : Richer doc doc') (hnone : doc.supportsNone = true) :
    doc'.supportsNone = true := by
  have hmethod := h.authMethod
  have hmethods := h.authMethods
  unfold supportsNone at hnone ⊢
  generalize doc.tokenEndpointAuthMethodsSupported = methods at hmethod hmethods hnone
  generalize doc'.tokenEndpointAuthMethodsSupported = methods' at hmethods
  cases hmethods with
  | absent => rwa [hmethod.resolve_right (fun hne => hne rfl)]
  | listed hsubset =>
    rw [List.any_eq_true] at hnone ⊢
    exact hnone.imp fun method hm => ⟨hsubset hm.1, hm.2⟩

theorem check_richer (h : Richer doc doc') (hok : doc.check U id = .ok client) :
    doc'.check U id = .ok client := by
  simp only [check_ok_iff, Checks.registration, Checks.grants, Checks.client, Outcome.guard_eq_ok,
    and_true] at hok ⊢
  obtain ⟨⟨hid, hname, hcount, hvalid, hnone⟩, hcode, hclient⟩ := hok
  rw [h.applicationType, h.clientId, h.clientName, h.redirectUris, h.responseTypes]
  refine ⟨⟨hid, hname, hcount, hvalid, ?_⟩, h.grantTypes.any hcode, hclient⟩
  simpa using h.keeps_none (by simpa using hnone)

end Document

/-! ## Edits of the tree -/

/-- The entries stay, in any order and any number of times, and strings may be added. -/
def Extends (xs ys : List Json) : Prop := xs ⊆ ys ∧ ∀ y ∈ ys, y ∈ xs ∨ ∃ s, y = .str s

/-- Extending a list of capabilities, in both forms that the decoder takes. -/
inductive Extension : Json → Json → Prop
  | member (before after : List (String × Json)) {field : String} {xs ys : List Json}
      (hfield : field = "grant_types" ∨ field = "token_endpoint_auth_methods_supported")
      (h : Extends xs ys) :
      Extension (.obj (before ++ (field, .arr xs) :: after))
        (.obj (before ++ (field, .arr ys) :: after))
  | grantTypes {a b c d e f g : Json} {xs ys : List Json} (h : Extends xs ys) :
      Extension (.arr [a, b, c, d, e, f, .arr xs, g]) (.arr [a, b, c, d, e, f, .arr ys, g])
  | authMethods {a b c d e f g : Json} {xs ys : List Json} (h : Extends xs ys) :
      Extension (.arr [a, b, c, d, e, .arr xs, f, g]) (.arr [a, b, c, d, e, .arr ys, f, g])

/-- An edit that leaves what is asked for. Where the supported methods are listed, the single method
may be any string; members that `Document` does not declare come and stay. -/
inductive Edit : Json → Json → Prop
  | extension {json json' : Json} (h : Extension json json') : Edit json json'
  | method {before after : List (String × Json)} {old : Json} {method : String} {xs : List Json}
      (h : ("token_endpoint_auth_methods_supported", .arr xs) ∈ before ++ after) :
      Edit (.obj (before ++ ("token_endpoint_auth_method", old) :: after))
        (.obj (before ++ ("token_endpoint_auth_method", .str method) :: after))
  | newMethod {before after : List (String × Json)} {method : String} {xs : List Json}
      (h : ("token_endpoint_auth_methods_supported", .arr xs) ∈ before ++ after)
      (hnew : (before ++ after).lookup "token_endpoint_auth_method" = none) :
      Edit (.obj (before ++ after))
        (.obj (before ++ ("token_endpoint_auth_method", .str method) :: after))
  | methodAt {a b c d old e f : Json} {method : String} {xs : List Json} :
      Edit (.arr [a, b, c, d, old, .arr xs, e, f]) (.arr [a, b, c, d, .str method, .arr xs, e, f])
  | undeclared {before after : List (String × Json)} {name : String} {value : Json}
      (h : name ∉ Document.fields) :
      Edit (.obj (before ++ after)) (.obj (before ++ (name, value) :: after))

/-- Removing entries that are strings from the two lists. -/
def Removal (json json' : Json) : Prop := Extension json' json

/-! ## Reading an edited tree -/

namespace Document

/-- Each field is read from its own member. -/
theorem decode_eq_some {applicationType clientId clientName redirectUris authMethod authMethods
    grantTypes responseTypes : Option Json} {doc : Document} :
    decode applicationType clientId clientName redirectUris authMethod authMethods grantTypes
      responseTypes = some doc ↔
    applicationType.elim (some .web) ApplicationType.ofJson = some doc.applicationType ∧
    clientId.bind Json.asStr = some doc.clientId ∧
    clientName.bind Json.asStr = some doc.clientName ∧
    redirectUris.bind (Json.list Json.asStr) = some doc.redirectUris ∧
    Json.nullable Json.asStr authMethod = some doc.tokenEndpointAuthMethod ∧
    Json.nullable (Json.list Json.asStr) authMethods = some doc.tokenEndpointAuthMethodsSupported ∧
    Json.nullable (Json.list Json.asStr) grantTypes = some doc.grantTypes ∧
    Json.nullable (Json.list Json.asStr) responseTypes = some doc.responseTypes := by
  unfold decode
  constructor
  · intro h
    split at h
    · cases h
      exact ⟨‹_›, ‹_›, ‹_›, ‹_›, ‹_›, ‹_›, ‹_›, ‹_›⟩
    · cases h
  · rintro ⟨h₁, h₂, h₃, h₄, h₅, h₆, h₇, h₈⟩
    rw [h₁, h₂, h₃, h₄, h₅, h₆, h₇, h₈]

end Document

theorem nullable_list {xs : List Json} {values : Option (List String)} :
    Json.nullable (Json.list Json.asStr) (some (.arr xs)) = some values ↔
      ∃ l, values = some l ∧ xs = l.map .str := by
  have hread : Json.nullable (Json.list Json.asStr) (some (.arr xs)) =
      (Json.list Json.asStr (.arr xs)).map some := rfl
  rw [hread, Option.map_eq_some_iff]
  simp only [Json.list_asStr, Json.arr.injEq]
  exact exists_congr fun l => ⟨fun h => ⟨h.2.symm, h.1⟩, fun h => ⟨h.2, h.1.symm⟩⟩

/-- An extended list is still a list of strings, and a wider one. -/
theorem Extends.widened {xs ys : List Json} (h : Extends xs ys) {values : Option (List String)}
    (hread : Json.nullable (Json.list Json.asStr) (some (.arr xs)) = some values) :
    ∃ values', Json.nullable (Json.list Json.asStr) (some (.arr ys)) = some values' ∧
      Widened values values' := by
  obtain ⟨l, rfl, rfl⟩ := nullable_list.mp hread
  have hstrings : ∀ y ∈ ys, ∃ s, y = .str s := by
    intro y hy
    rcases h.2 y hy with hold | hnew
    · obtain ⟨s, -, rfl⟩ := List.mem_map.mp hold
      exact ⟨s, rfl⟩
    · exact hnew
  obtain ⟨l', rfl⟩ := Json.exists_strings hstrings
  refine ⟨some l', nullable_list.mpr ⟨l', rfl, rfl⟩, .listed fun s hs => ?_⟩
  obtain ⟨s', hs', hsame⟩ := List.mem_map.mp (h.1 (List.mem_map_of_mem hs))
  cases hsame
  exact hs'

/-- What the decoder finds under the names of the fields. -/
inductive Read : Json → (String → Option Json) → Prop
  | members {members : List (String × Json)}
      (h : Json.unrepeated Document.fields (.obj members) = true) :
      Read (.obj members) (members.lookup ·)
  | sequence {a b c d e f g h : Json} :
      Read (.arr [a, b, c, d, e, f, g, h])
        ((Document.fields.zip [a, b, c, d, e, f, g, h]).lookup ·)

namespace Document

/-- The document of the values under the names of the fields. -/
def ofRead (read : String → Option Json) : Option Document :=
  decode (read "application_type") (read "client_id") (read "client_name") (read "redirect_uris")
    (read "token_endpoint_auth_method") (read "token_endpoint_auth_methods_supported")
    (read "grant_types") (read "response_types")

theorem ofJson_eq_some {json : Json} {doc : Document} :
    ofJson json = some doc ↔ ∃ read, Read json read ∧ ofRead read = some doc := by
  constructor
  · intro h
    unfold ofJson at h
    split at h
    · split at h
      · rename_i hunrepeated
        exact ⟨_, .members hunrepeated, h⟩
      · cases h
    · exact ⟨_, .sequence, h⟩
    · cases h
  · rintro ⟨read, hread, h⟩
    cases hread with
    | members hunrepeated => exact (if_pos hunrepeated).trans h
    | sequence => exact h

end Document

/-- What an edit changes for the decoder. -/
inductive Changed (read read' : String → Option Json) : Prop
  | extension {field : String} {xs ys : List Json}
      (hfield : field = "grant_types" ∨ field = "token_endpoint_auth_methods_supported")
      (h : Extends xs ys) (hold : read field = some (.arr xs)) (hnew : read' field = some (.arr ys))
      (hother : ∀ name ≠ field, read' name = read name)
  | method {method : String} {xs : List Json}
      (h : read "token_endpoint_auth_methods_supported" = some (.arr xs))
      (hnew : read' "token_endpoint_auth_method" = some (.str method))
      (hother : ∀ name ≠ "token_endpoint_auth_method", read' name = read name)
  | undeclared (hother : ∀ name ∈ Document.fields, read' name = read name)

theorem Changed.richer {read read' : String → Option Json} {doc : Document}
    (h : Changed read read') (hread : Document.ofRead read = some doc) :
    ∃ doc', Document.ofRead read' = some doc' ∧ doc.Richer doc' := by
  obtain ⟨happlication, hid, hname, huris, hmethod, hmethods, hgrants, hresponses⟩ :=
    Document.decode_eq_some.mp hread
  cases h with
  | @extension field xs ys hfield hext hold hnew hother =>
    rcases hfield with rfl | rfl
    · rw [hold] at hgrants
      obtain ⟨grants', hgrants', hwidened⟩ := hext.widened hgrants
      refine ⟨{ doc with grantTypes := grants' }, Document.decode_eq_some.mpr ?_,
        ⟨rfl, rfl, rfl, rfl, .inl rfl, .refl _, hwidened, rfl⟩⟩
      simp (disch := decide) only [hother, hnew]
      exact ⟨happlication, hid, hname, huris, hmethod, hmethods, hgrants', hresponses⟩
    · rw [hold] at hmethods
      obtain ⟨methods', hmethods', hwidened⟩ := hext.widened hmethods
      refine ⟨{ doc with tokenEndpointAuthMethodsSupported := methods' },
        Document.decode_eq_some.mpr ?_, ⟨rfl, rfl, rfl, rfl, .inl rfl, hwidened, .refl _, rfl⟩⟩
      simp (disch := decide) only [hother, hnew]
      exact ⟨happlication, hid, hname, huris, hmethod, hmethods', hgrants, hresponses⟩
  | @method method xs hlisted hnew hother =>
    rw [hlisted] at hmethods
    obtain ⟨l, hl, -⟩ := nullable_list.mp hmethods
    refine ⟨{ doc with tokenEndpointAuthMethod := some method }, Document.decode_eq_some.mpr ?_,
      ⟨rfl, rfl, rfl, rfl, .inr (by rw [hl]; exact Option.some_ne_none l), .refl _, .refl _, rfl⟩⟩
    simp (disch := decide) only [hother, hnew, hlisted]
    exact ⟨happlication, hid, hname, huris, rfl, hmethods, hgrants, hresponses⟩
  | undeclared hother =>
    refine ⟨doc, ?_, ⟨rfl, rfl, rfl, rfl, .inl rfl, .refl _, .refl _, rfl⟩⟩
    simp (disch := decide) only [Document.ofRead, hother]
    exact hread

theorem lookup_zip_ne {fields : List String} (before : List Json) {after : List Json} {v w : Json}
    {name : String} (h : fields[before.length]? ≠ some name) :
    (fields.zip (before ++ v :: after)).lookup name =
      (fields.zip (before ++ w :: after)).lookup name := by
  induction before generalizing fields with
  | nil =>
    cases fields with
    | nil => rfl
    | cons field fields =>
      have hne : name ≠ field := fun hsame => h (congrArg some hsame.symm)
      simp only [List.nil_append, List.zip_cons_cons, List.lookup_cons, beq_false_of_ne hne]
  | cons x before ih =>
    cases fields with
    | nil => rfl
    | cons field fields =>
      simp only [List.cons_append, List.zip_cons_cons, List.lookup_cons, ih h]

theorem Extension.changed {json json' : Json} {read : String → Option Json}
    (h : Extension json json') (hread : Read json read) :
    ∃ read', Read json' read' ∧ Changed read read' := by
  cases h with
  | @member before after field xs ys hfield hext =>
    cases hread with
    | members hunrepeated =>
      obtain ⟨hrest, hnew⟩ := Json.unrepeated_insert.mp hunrepeated
      have hdeclared : field ∈ Document.fields := by
        rcases hfield with rfl | rfl <;> decide
      refine ⟨_, .members (Json.unrepeated_insert.mpr ⟨hrest, hnew⟩), .extension hfield hext
        (Json.lookup_insert_self (hnew hdeclared)) (Json.lookup_insert_self (hnew hdeclared))
        fun name hname => ?_⟩
      rw [Json.lookup_insert_ne hname, Json.lookup_insert_ne hname]
  | grantTypes hext =>
    cases hread with
    | sequence =>
      refine ⟨_, .sequence, .extension (.inl rfl) hext rfl rfl fun name hname => ?_⟩
      exact lookup_zip_ne [_, _, _, _, _, _] fun hsame => hname (Option.some.inj hsame).symm
  | authMethods hext =>
    cases hread with
    | sequence =>
      refine ⟨_, .sequence, .extension (.inr rfl) hext rfl rfl fun name hname => ?_⟩
      exact lookup_zip_ne [_, _, _, _, _] fun hsame => hname (Option.some.inj hsame).symm

theorem Edit.changed {json json' : Json} {read : String → Option Json}
    (h : Edit json json') (hread : Read json read) :
    ∃ read', Read json' read' ∧ Changed read read' := by
  cases h with
  | extension h => exact h.changed hread
  | @method before after old method xs hlisted =>
    cases hread with
    | members hunrepeated =>
      obtain ⟨hrest, hnew⟩ := Json.unrepeated_insert.mp hunrepeated
      have hfound := Json.lookup_of_mem hrest (by decide) hlisted
      refine ⟨_, .members (Json.unrepeated_insert.mpr ⟨hrest, hnew⟩),
        .method ((Json.lookup_insert_ne (by decide)).trans hfound)
        (Json.lookup_insert_self (hnew (by decide))) fun name hname => ?_⟩
      rw [Json.lookup_insert_ne hname, Json.lookup_insert_ne hname]
  | @newMethod before after method xs hlisted hnew =>
    cases hread with
    | members hrest =>
      have hfound := Json.lookup_of_mem hrest (by decide) hlisted
      exact ⟨_, .members (Json.unrepeated_insert.mpr ⟨hrest, fun _ => hnew⟩),
        .method hfound (Json.lookup_insert_self hnew) fun name hname => Json.lookup_insert_ne hname⟩
  | methodAt =>
    cases hread with
    | sequence =>
      refine ⟨_, .sequence, .method rfl rfl fun name hname => ?_⟩
      exact lookup_zip_ne [_, _, _, _] fun hsame => hname (Option.some.inj hsame).symm
  | @undeclared before after name value hname =>
    cases hread with
    | members hrest =>
      refine ⟨_, .members (Json.unrepeated_insert.mpr ⟨hrest, fun h => absurd h hname⟩),
        .undeclared fun field hfield => Json.lookup_insert_ne fun hsame => ?_⟩
      exact hname (hsame ▸ hfield)

theorem ofJson_edit {json json' : Json} {doc : Document} (h : Edit json json')
    (hdoc : Document.ofJson json = some doc) :
    ∃ doc', Document.ofJson json' = some doc' ∧ doc.Richer doc' := by
  obtain ⟨read, hread, hof⟩ := Document.ofJson_eq_some.mp hdoc
  obtain ⟨read', hread', hchanged⟩ := h.changed hread
  obtain ⟨doc', hof', hricher⟩ := hchanged.richer hof
  exact ⟨doc', Document.ofJson_eq_some.mpr ⟨read', hread', hof'⟩, hricher⟩

/-! ## Any number of edits -/

/-- Whether a tree is accepted for `id`, and as which client. -/
def Accepted (U : UrlCrate) (id : String) (json : Json) (client : Client) : Prop :=
  ∃ doc, Document.ofJson json = some doc ∧ doc.check U id = .ok client

section

variable {U : UrlCrate} {id : String} {json json' : Json} {client : Client}

theorem Accepted.edit (h : Edit json json') (haccepted : Accepted U id json client) :
    Accepted U id json' client := by
  obtain ⟨doc, hdoc, hok⟩ := haccepted
  obtain ⟨doc', hdoc', hricher⟩ := ofJson_edit h hdoc
  exact ⟨doc', hdoc', Document.check_richer hricher hok⟩

theorem Accepted.edits (h : Relation.ReflTransGen Edit json json')
    (haccepted : Accepted U id json client) : Accepted U id json' client := by
  induction h with
  | refl => exact haccepted
  | tail _ hlast ih => exact ih.edit hlast

/-- What is accepted after removals was accepted before them. -/
theorem Accepted.restored (h : Relation.ReflTransGen Removal json json')
    (haccepted : Accepted U id json' client) : Accepted U id json client := by
  have hextends : Extension ≤ Edit := fun _ _ => Edit.extension
  have hback : Relation.ReflTransGen Extension json' json := Relation.reflTransGen_swap.mp h
  exact haccepted.edits (Relation.ReflTransGen.mono hextends _ _ hback)

theorem parseDocument_accepted {fromSlice : List UInt8 → Option Json} {bytes : List UInt8}
    (h : fromSlice bytes = some json) :
    parseDocument U fromSlice id bytes = .ok client ↔ Accepted U id json client := by
  rw [parseDocument_ok_iff, h, Option.bind_some, Accepted]

end

/-- **What a client advertises besides does not matter.** A document that is accepted stays accepted
as the same client through any edits that only advertise more, and a document that is refused stays
refused when it advertises less. -/
theorem extra_capabilities (U : UrlCrate) (fromSlice : List UInt8 → Option Json) (id : String)
    (bytes bytes' : List UInt8) (json json' : Json) (h : fromSlice bytes = some json)
    (h' : fromSlice bytes' = some json') :
    (Relation.ReflTransGen Edit json json' → ∀ client,
      parseDocument U fromSlice id bytes = .ok client →
        parseDocument U fromSlice id bytes' = .ok client) ∧
    (Relation.ReflTransGen Removal json json' →
      (∃ e, parseDocument U fromSlice id bytes = .error e) →
        ∃ e, parseDocument U fromSlice id bytes' = .error e) := by
  constructor
  · intro hedits client hok
    rw [parseDocument_accepted h] at hok
    exact (parseDocument_accepted h').mpr (hok.edits hedits)
  · rintro hremovals ⟨e, he⟩
    cases hparse : parseDocument U fromSlice id bytes' with
    | error e' => exact ⟨e', rfl⟩
    | ok client =>
      have haccepted := ((parseDocument_accepted h').mp hparse).restored hremovals
      rw [(parseDocument_accepted h).mpr haccepted] at he
      cases he

/-- A document that lists grant types, and lists more of them. -/
def grantTree (grants : List String) : Json :=
  .obj [("client_id", .str exampleId), ("client_name", .str "Example"),
    ("redirect_uris", .arr [.str "http://127.0.0.1/cb"]), ("grant_types", .arr (grants.map .str))]

def utf8 (s : String) : List UInt8 := s.toUTF8.data.toList

def grantBytes (grants : String) : List UInt8 :=
  utf8 ("\x7b\"client_id\":\"https://client.example/metadata\",\"client_name\":\"Example\"," ++
    "\"redirect_uris\":[\"http://127.0.0.1/cb\"],\"grant_types\":[") ++ utf8 grants ++ utf8 "]\x7d"

def codeGrant : String := "\"authorization_code\""

def moreGrants : String := "\"refresh_token\",\"authorization_code\""

/-- `serde_json` at these documents. -/
def grantSlice (bytes : List UInt8) : Option Json :=
  if bytes = grantBytes moreGrants then some (grantTree ["refresh_token", "authorization_code"])
  else if bytes = grantBytes codeGrant then some (grantTree ["authorization_code"])
  else none

theorem grantTree_extended :
    Edit (grantTree ["authorization_code"]) (grantTree ["refresh_token", "authorization_code"]) := by
  refine .extension (.member [_, _, _] [] (.inl rfl) ⟨?_, fun y hy => .inr ?_⟩)
  · exact List.subset_cons_self _ _
  · obtain ⟨grant, -, rfl⟩ := List.mem_map.mp hy
    exact ⟨grant, rfl⟩

theorem extra_capabilities_grants :
    parseDocument exampleCrate grantSlice exampleId (grantBytes moreGrants) =
      .ok ⟨exampleId, "Example", ["http://127.0.0.1/cb"], true, .web⟩ := by
  have hmore : grantSlice (grantBytes moreGrants) =
      some (grantTree ["refresh_token", "authorization_code"]) := if_pos rfl
  have hne : grantBytes codeGrant ≠ grantBytes moreGrants := fun h => by
    have hgrants := congrArg List.length (List.append_cancel_left (List.append_cancel_right h))
    revert hgrants
    decide
  have hcode : grantSlice (grantBytes codeGrant) = some (grantTree ["authorization_code"]) :=
    (if_neg hne).trans (if_pos rfl)
  refine (extra_capabilities exampleCrate grantSlice exampleId _ _ _ _ hcode hmore).1
    (.single grantTree_extended) _ ?_
  rw [parseDocument, Checks.decode, hcode]
  decide

end Authzoo.Oauth
