import Authzoo.Lib.Assoc
import Authzoo.Lib.Codec
import Authzoo.Requirement

/-!
# Authzoo.Tree

What derived decoders make of a data tree: lists, maps and structs.

* `Json.list_encode`, `Json.btreeMap_encode` : lists and maps of written values are read back.
* `Json.list_asStr` : the trees that are read as a list of strings.
* `Json.unrepeated_insert` : when a member may be added.
* `Json.members_single` : the trees that are read as a struct of one field.
* `ValidatedClaims.deserialize_distinct` : how a payload without repeated members is decoded.
* `Json.known_perm`, `Json.unrepeated_perm` : the members of a struct as its fields in declaration order.
-/

namespace Authzoo

/-! ## Reading a tree -/

namespace Json

/-- A `Vec`. -/
def list {α : Type} (decode : Json → Option α) (json : Json) : Option (List α) :=
  json.asArray.bind fun xs => xs.mapM decode

/-- An `Option` field, for which missing and null are both `None`. -/
def nullable {α : Type} (decode : Json → Option α) : Option Json → Option (Option α)
  | none | some .null => some none
  | some json => (decode json).map some

/-- A `BTreeMap` with string keys, where a repeated key keeps its last value. -/
def btreeMap {α : Type} (decode : Json → Option α) : Json → Option (BTreeMap String α)
  | .obj members => (members.mapM (Codec.entry decode)).map fun entries => .ofList entries
  | _ => none

/-- A struct with `deny_unknown_fields`, as its members. In a sequence the fields stand in
declaration order, and those behind the first `required` ones may be missing. -/
def members (fields : List String) (required : Nat) : Json → Option (List (String × Json))
  | .obj members =>
    if members.all (fields.contains ·.1) && unrepeated fields (.obj members) then some members
    else none
  | .arr xs =>
    if required ≤ xs.length ∧ xs.length ≤ fields.length then some (fields.zip xs) else none
  | _ => none

end Json

/-! ## Lists and maps -/

theorem BTreeMap.ofList_toList {α : Type} (m : BTreeMap String α) :
    Std.ExtTreeMap.ofList m.toList = m := by
  refine Std.ExtTreeMap.ext_getElem? fun key => ?_
  cases hkey : m[key]? with
  | some a =>
    exact Std.ExtTreeMap.getElem?_ofList_of_mem Std.ReflCmp.compare_self
      Std.ExtTreeMap.distinct_keys_toList
      (Std.ExtTreeMap.mem_toList_iff_getElem?_eq_some.mpr hkey)
  | none =>
    rw [BTreeMap.getElem?_ofList, List.lookup_eq_none_iff]
    rintro ⟨k, a⟩ hin
    rw [List.mem_reverse, Std.ExtTreeMap.mem_toList_iff_getElem?_eq_some] at hin
    refine bne_iff_ne.mpr fun hsame => ?_
    obtain rfl : key = k := hsame
    rw [hkey] at hin
    cases hin

theorem Json.list_encode {α : Type} (c : Codec Json α) (as : List α) :
    Json.list c.decode (.arr (as.map c.encode)) = some as :=
  c.mapM_encode as

theorem Json.btreeMap_encode {α : Type} (c : Codec Json α) (m : BTreeMap String α) :
    Json.btreeMap c.decode (.obj (m.toList.map fun (key, a) => (key, c.encode a))) = some m := by
  rw [Json.btreeMap, c.mapM_entries, Option.map_some, BTreeMap.ofList_toList]

/-- A text is written as itself. -/
def Json.text : Codec Json String := ⟨.str, Json.asStr, fun _ => rfl⟩

theorem Json.list_asStr {json : Json} {values : List String} :
    json.list Json.asStr = some values ↔ json = .arr (values.map .str) := by
  constructor
  · intro h
    cases json with
    | arr xs => exact congrArg _ (Json.text.mapM_eq_some (fun _ _ => Json.asStr_eq_some.mp) h)
    | _ => cases h
  · rintro rfl
    exact Json.list_encode Json.text values

theorem Json.exists_strings {xs : List Json} (h : ∀ x ∈ xs, ∃ s, x = .str s) :
    ∃ values : List String, xs = values.map .str := by
  induction xs with
  | nil => exact ⟨[], rfl⟩
  | cons x xs ih =>
    rw [List.forall_mem_cons] at h
    obtain ⟨s, rfl⟩ := h.1
    obtain ⟨values, rfl⟩ := ih h.2
    exact ⟨s :: values, rfl⟩

/-! ## Members -/

namespace Json

variable {before after : List (String × Json)} {field name : String} {value : Json}

theorem lookup_insert_ne (h : name ≠ field) :
    (before ++ (field, value) :: after).lookup name = (before ++ after).lookup name := by
  rw [List.lookup_append, List.lookup_append, List.lookup_cons, beq_false_of_ne h]

theorem lookup_insert_self (h : (before ++ after).lookup field = none) :
    (before ++ (field, value) :: after).lookup field = some value := by
  rw [List.lookup_append, Option.or_eq_none_iff] at h
  rw [List.lookup_append, h.1, List.lookup_cons_self, Option.none_or]

theorem lookup_none_iff {members : List (String × Json)} :
    members.lookup name = none ↔ members.filter (·.1 = name) = [] := by
  simp only [List.lookup_eq_none_iff, List.filter_eq_nil_iff, bne_iff_ne, decide_eq_true_eq, ne_comm,
    ne_eq]

/-- A new member does not repeat a name if it is not registered or if the name is not there yet. -/
theorem unrepeated_insert {registered : List String} :
    unrepeated registered (.obj (before ++ (field, value) :: after)) = true ↔
      unrepeated registered (.obj (before ++ after)) = true ∧
        (field ∈ registered → (before ++ after).lookup field = none) := by
  simp only [unrepeated, List.all_eq_true, decide_eq_true_eq, List.filter_append, List.filter_cons,
    lookup_none_iff]
  constructor
  · intro h
    refine ⟨fun name hname => ?_, fun hfield => ?_⟩
    · have hle := h name hname
      split at hle
      · simp only [List.length_append, List.length_cons] at hle ⊢
        omega
      · exact hle
    · have hle := h field hfield
      rw [if_pos rfl] at hle
      simp only [List.length_append, List.length_cons] at hle
      rw [← List.length_eq_zero_iff, List.length_append]
      omega
  · rintro ⟨h, hnew⟩ name hname
    split
    · rename_i hsame
      subst hsame
      have hnone := List.length_eq_zero_iff.mpr (hnew hname)
      simp only [List.length_append, List.length_cons] at hnone ⊢
      omega
    · exact h name hname

theorem lookup_of_mem {registered : List String} {members : List (String × Json)}
    (h : unrepeated registered (.obj members) = true) (hfield : field ∈ registered)
    (hin : (field, value) ∈ members) : members.lookup field = some value := by
  obtain ⟨before, after, rfl⟩ := List.append_of_mem hin
  exact lookup_insert_self ((unrepeated_insert.mp h).2 hfield)

end Json

/-- A struct of one required field. -/
theorem Json.members_single {json value : Json} {field : String} :
    (∃ members, json.members [field] 1 = some members ∧ members.lookup field = some value) ↔
      json = .obj [(field, value)] ∨ json = .arr [value] := by
  constructor
  · rintro ⟨members, hmembers, hlookup⟩
    cases json with
    | obj all =>
      simp only [Json.members, Json.unrepeated, List.all_cons, List.all_nil, Bool.and_true,
        Option.ite_none_right_eq_some, Bool.and_eq_true, List.all_eq_true, decide_eq_true_eq,
        List.contains_iff_mem, List.mem_singleton, Option.some.injEq] at hmembers
      obtain ⟨⟨hnames, honce⟩, rfl⟩ := hmembers
      rw [List.filter_eq_self.mpr fun m hm => decide_eq_true (hnames m hm)] at honce
      cases all with
      | nil => cases hlookup
      | cons head rest =>
        obtain ⟨name, v⟩ := head
        obtain rfl : name = field := hnames _ List.mem_cons_self
        obtain rfl : rest = [] := by simpa using honce
        simp at hlookup
        simp [hlookup]
    | arr xs =>
      simp only [Json.members, List.length_singleton] at hmembers
      split at hmembers
      · rename_i h
        cases hmembers
        obtain ⟨x, rfl⟩ := List.length_eq_one_iff.mp (Nat.le_antisymm h.2 h.1)
        simp at hlookup
        simp [hlookup]
      · cases hmembers
    | _ => cases hmembers
  · rintro (rfl | rfl)
    · exact ⟨[(field, value)], by simp [Json.members, Json.unrepeated], by simp⟩
    · exact ⟨[(field, value)], by simp [Json.members], by simp⟩

theorem Json.field_single {α : Type} {read : Json → Option α} {write : α → Json}
    (h : ∀ {json a}, read json = some a ↔ json = write a) {json : Json} {field : String} {a : α} :
    (∃ members, json.members [field] 1 = some members ∧ (members.lookup field).bind read = some a) ↔
      json = .obj [(field, write a)] ∨ json = .arr [write a] := by
  simp only [← Json.members_single, Option.bind_eq_some_iff, h, exists_eq_right]

/-! ## Distinct members -/

theorem Json.unrepeated_distinct {registered : List String} {members : List (String × Json)}
    (h : Assoc.Distinct members) : Json.unrepeated registered (.obj members) = true := by
  simp only [Json.unrepeated, List.all_eq_true, decide_eq_true_eq]
  intro name _
  cases hlookup : members.lookup name with
  | none => simp [Json.lookup_none_iff.mp hlookup]
  | some value =>
    rw [Assoc.filter_key h (Assoc.lookup_mem hlookup)]
    exact Nat.le_refl 1

/-- A payload with distinct members decodes to their values. -/
theorem ValidatedClaims.deserialize_distinct {members : List (String × Json)}
    (h : Assoc.Distinct members) {sub : String} (hsub : members.lookup "sub" = some (.str sub)) :
    ∃ c, deserialize (.obj members) = some c ∧
      ∀ name, c.value name = (Json.obj members).get? name := by
  refine ⟨⟨sub, .ofList (members.filter (·.1 ≠ "sub"))⟩, ?_, fun name => ?_⟩
  · simp only [deserialize, Assoc.filter_key h (Assoc.lookup_mem hsub)]
  · by_cases hname : name = "sub"
    · subst hname
      rw [value, if_pos rfl, Json.get?, hsub]
    · have hrest : Assoc.Distinct (members.filter (·.1 ≠ "sub")) :=
        h.sublist (List.filter_sublist.map _)
      rw [value, if_neg hname, BTreeMap.getElem?_ofList, Json.get?,
        Assoc.lookup_perm hrest (List.reverse_perm _).symm, Assoc.lookup_filter_ne hname]

/-! ## Structs of several fields -/

namespace Json

/-- The members of known fields, in declaration order. -/
def present (fields : List String) (members : List (String × Json)) : List (String × Json) :=
  fields.filterMap fun field => (members.lookup field).map fun value => (field, value)

theorem known_distinct {fields : List String} {members : List (String × Json)}
    (h : unrepeated fields (.obj members) = true) :
    Assoc.Distinct (members.filter (fields.contains ·.1)) := by
  induction members with
  | nil => exact List.nodup_nil
  | cons m members ih =>
    obtain ⟨name, value⟩ := m
    have hcons : unrepeated fields (.obj ([] ++ (name, value) :: members)) = true := h
    obtain ⟨hrest, hnew⟩ := unrepeated_insert.mp hcons
    rw [List.nil_append] at hrest hnew
    by_cases hknown : name ∈ fields
    · rw [List.filter_cons_of_pos (by simpa using hknown)]
      refine List.nodup_cons.mpr ⟨fun hin => ?_, ih hrest⟩
      obtain ⟨m, hm, hname⟩ := List.mem_map.mp hin
      have hlookup := List.lookup_eq_none_iff.mp (hnew hknown) m (List.mem_filter.mp hm).1
      simp [hname] at hlookup
    · rw [List.filter_cons_of_neg (by simpa using hknown)]
      exact ih hrest

theorem mem_present {fields : List String} {members : List (String × Json)} {field : String}
    {value : Json} :
    (field, value) ∈ present fields members ↔ field ∈ fields ∧ members.lookup field = some value := by
  simp only [present, List.mem_filterMap, Option.map_eq_some_iff, Prod.mk.injEq]
  constructor
  · rintro ⟨_, hin, _, hlookup, rfl, rfl⟩
    exact ⟨hin, hlookup⟩
  · rintro ⟨hin, hlookup⟩
    exact ⟨field, hin, value, hlookup, rfl, rfl⟩

/-- Members without repeated fields are the known ones in declaration order, and the others. -/
theorem known_perm {fields : List String} (hfields : fields.Nodup) {members : List (String × Json)}
    (h : unrepeated fields (.obj members) = true) :
    members.Perm (present fields members ++ members.filter (!fields.contains ·.1)) := by
  have hknown : (members.filter (fields.contains ·.1)).Perm (present fields members) := by
    have hpresent : (present fields members).Nodup := by
      refine List.Nodup.filterMap (fun field field' m hm hm' => ?_) hfields
      obtain ⟨value, -, rfl⟩ := Option.map_eq_some_iff.mp hm
      obtain ⟨value', -, hsame⟩ := Option.map_eq_some_iff.mp hm'
      exact (congrArg Prod.fst hsame).symm
    refine (List.perm_ext_iff_of_nodup (List.Nodup.of_map _ (known_distinct h)) hpresent).mpr ?_
    rintro ⟨field, value⟩
    rw [mem_present, List.mem_filter, List.contains_iff_mem]
    constructor
    · rintro ⟨hin, hfield⟩
      exact ⟨hfield, lookup_of_mem h hfield hin⟩
    · rintro ⟨hfield, hlookup⟩
      exact ⟨Assoc.lookup_mem hlookup, hfield⟩
  exact (List.filter_append_perm _ members).symm.trans (hknown.append_right _)

/-- In any order, and with others between them, members are read as they are written. -/
theorem unrepeated_perm {fields : List String} {members written extra : List (String × Json)}
    (hperm : members.Perm (written ++ extra)) (hdistinct : Assoc.Distinct written)
    (hextra : ∀ m ∈ extra, m.1 ∉ fields) :
    unrepeated fields (.obj members) = true ∧
      ∀ field ∈ fields, members.lookup field = written.lookup field := by
  have hfilter : ∀ field ∈ fields,
      (members.filter (·.1 = field)).Perm (written.filter (·.1 = field)) := by
    intro field hfield
    have hnone : extra.filter (·.1 = field) = [] := List.filter_eq_nil_iff.mpr fun m hm hname =>
      hextra m hm (of_decide_eq_true hname ▸ hfield)
    have hboth := hperm.filter (·.1 = field)
    rwa [List.filter_append, hnone, List.append_nil] at hboth
  have honce : unrepeated fields (.obj members) = true := by
    simp only [unrepeated, List.all_eq_true, decide_eq_true_eq]
    intro field hfield
    rw [(hfilter field hfield).length_eq]
    have hwritten : unrepeated [field] (.obj written) = true := unrepeated_distinct hdistinct
    simpa [unrepeated] using hwritten
  refine ⟨honce, fun field hfield => ?_⟩
  cases hlookup : written.lookup field with
  | none =>
    rw [lookup_none_iff] at hlookup ⊢
    exact List.perm_nil.mp (hlookup ▸ hfilter field hfield)
  | some value =>
    exact lookup_of_mem honce hfield
      (hperm.mem_iff.mpr (List.mem_append_left _ (Assoc.lookup_mem hlookup)))

/-- The trees that are read as a struct of one field with a default. -/
theorem members_default {json : Json} {field : String} {members : List (String × Json)}
    (h : json.members [field] 0 = some members) :
    (members.lookup field = none ∧ (json = .obj [] ∨ json = .arr [])) ∨
      ∃ value, members.lookup field = some value ∧
        (json = .obj [(field, value)] ∨ json = .arr [value]) := by
  cases json with
  | obj all =>
    simp only [Json.members, Option.ite_none_right_eq_some, Bool.and_eq_true,
      Option.some.injEq] at h
    obtain ⟨⟨hknown, honce⟩, rfl⟩ := h
    have hperm := known_perm (List.nodup_singleton field) honce
    have hnone : all.filter (!List.contains [field] ·.1) = [] := by
      rw [List.filter_eq_nil_iff]
      intro m hm
      simpa using List.all_eq_true.mp hknown m hm
    rw [hnone, List.append_nil, present, List.filterMap_cons, List.filterMap_nil] at hperm
    cases hlookup : all.lookup field with
    | none =>
      rw [hlookup] at hperm
      exact .inl ⟨rfl, .inl (congrArg Json.obj (List.perm_nil.mp hperm))⟩
    | some value =>
      rw [hlookup] at hperm
      exact .inr ⟨value, rfl, .inl (congrArg Json.obj (List.perm_singleton.mp hperm))⟩
  | arr xs =>
    simp only [Json.members, Option.ite_none_right_eq_some, Option.some.injEq] at h
    obtain ⟨⟨-, hmost⟩, rfl⟩ := h
    rcases xs with _ | ⟨value, _ | ⟨more, xs⟩⟩
    · exact .inl ⟨rfl, .inr rfl⟩
    · exact .inr ⟨value, List.lookup_cons_self, .inr rfl⟩
    · simp at hmost
  | _ => cases h

/-- An `Option` field: given, null, or left out. -/
inductive WrittenOption (field : String) : Option String → List (String × Json) → Prop where
  | given {s : String} : WrittenOption field (some s) [(field, .str s)]
  | null : WrittenOption field none [(field, .null)]
  | absent : WrittenOption field none []

theorem nullable_iff {field : String} {found : Option Json} {value : Option String} :
    nullable asStr found = some value ↔
      WrittenOption field value (found.map fun json => (field, json)).toList := by
  cases found with
  | none =>
    constructor
    · rintro ⟨⟩
      exact .absent
    · intro h
      cases h
      rfl
  | some json =>
    constructor
    · intro h
      cases json with
      | null =>
        cases h
        exact .null
      | str s =>
        cases h
        exact .given
      | _ => cases h
    · intro h
      cases h with
      | given | null => rfl

theorem nullable_some {json : Json} {value : Option String} :
    nullable asStr (some json) = some value ↔ json = value.elim .null .str := by
  cases json <;> cases value <;> simp [nullable, asStr]

namespace WrittenOption

variable {field name : String} {value : Option String} {l : List (String × Json)}

theorem names (h : WrittenOption field value l) : (l.map Prod.fst).Sublist [field] := by
  cases h with
  | given | null => exact List.Sublist.refl _
  | absent => exact List.nil_sublist _

theorem lookup_ne (h : WrittenOption field value l) (hne : name ≠ field) : l.lookup name = none := by
  cases h with
  | given | null => rw [List.lookup_cons, beq_false_of_ne hne, List.lookup_nil]
  | absent => rfl

theorem read (h : WrittenOption field value l) :
    nullable asStr (l.lookup field) = some value := by
  cases h with
  | given | null => rw [List.lookup_cons_self]; rfl
  | absent => rfl

end WrittenOption

end Json

end Authzoo
