import TypedApi.Proofs.Document.Fields
import TypedApi.Proofs.Document.Roles
/-!
Null as a type and null as a flag.

A schema may admit null in two ways: its `type` lists one type and null, or it
names that type alone and `nullable` is true. `flagged` rewrites the first form
as the second, for the schema itself and for the schemas inside it. Where the
schemas inside a schema stand depends on the keyword: some keywords hold a
schema, some a list of them, one a map; everything else is data and is kept,
also where it happens to look like a schema.

The flag costs no nesting, and a list of types costs one level, so the flagged
form is nested as deep as the schema or one level less.
-/

set_option autoImplicit false

namespace TypedApi

/-! ## Where schemas stand -/

/-- What a value within a schema stands for. -/
inductive Spot where
  | schema
  | list
  | map
  | data
deriving DecidableEq, Repr

namespace Spot

/-- What stands under a keyword of a schema. -/
def ofKeyword : String → Spot
  | "properties" => .map
  | "items" | "additionalProperties" | "not" => .schema
  | "oneOf" | "allOf" | "anyOf" => .list
  | _ => .data

/-- What stands under a key. -/
def under (spot : Spot) (key : Document) : Spot :=
  match spot, key with
  | .map, _ => .schema
  | .schema, .text keyword => ofKeyword keyword
  | _, _ => .data

end Spot

namespace Document

/-! ## The flagged form -/

/-- The type besides null in a list of two types. -/
def typeBesideNull? : Document → Option String
  | .array [.text a, .text b] =>
    if a ≠ "null" && b = "null" then some a
    else if a = "null" && b ≠ "null" then some b
    else none
  | _ => none

/-- A schema whose type is a list of one type and null, with that type and the flag instead. -/
def withFlag (schema : Document) : Document :=
  match (schema.find? "type").bind typeBesideNull? with
  | some type => (schema.withField "type" (.text type)).withField "nullable" (.bool true)
  | none => schema

mutual
/-- The value with a flag for every list of one type and null, in every schema that stands in it. -/
def flagged : Spot → Document → Document
  | .schema, .object fields => (object (flaggedFields .schema fields)).withFlag
  | .map, .object fields => .object (flaggedFields .map fields)
  | .list, .array items => .array (flaggedItems items)
  | .list, .pair a b => .pair (a.flagged .schema) (b.flagged .schema)
  | _, d => d

/-- The elements of a list of schemas. -/
def flaggedItems : List Document → List Document
  | [] => []
  | d :: rest => d.flagged .schema :: flaggedItems rest

/-- The fields of a schema or of a map of schemas. -/
def flaggedFields : Spot → List (Document × Document) → List (Document × Document)
  | _, [] => []
  | spot, (k, d) :: rest => (k, d.flagged (spot.under k)) :: flaggedFields spot rest
end

@[simp] theorem flaggedItems_eq_map (items : List Document) :
    flaggedItems items = items.map (flagged .schema) := by
  induction items with
  | nil => rfl
  | cons d rest ih => rw [flaggedItems, ih, List.map_cons]

@[simp] theorem flaggedFields_eq_map (spot : Spot) (fields : List (Document × Document)) :
    flaggedFields spot fields = fields.map fun p => (p.1, p.2.flagged (spot.under p.1)) := by
  induction fields with
  | nil => rfl
  | cons p rest ih => rw [flaggedFields, ih, List.map_cons]

/-- Data are kept. -/
@[simp] theorem flagged_data (d : Document) : d.flagged .data = d := by
  cases d <;> rfl

/-! ## Reading the flagged form -/

/-- What is found under a key is the flagged form of what is there. -/
theorem lookup?_flagged (spot : Spot) (key : String) (fields : List (Document × Document)) :
    lookup? key (fields.map fun p => (p.1, p.2.flagged (spot.under p.1))) =
      (lookup? key fields).map (flagged (spot.under (.text key))) := by
  induction fields with
  | nil => rfl
  | cons p rest ih =>
    obtain ⟨k, x⟩ := p
    rw [List.map_cons, lookup?, lookup?, ih]
    by_cases hk : k.isText key = true
    · obtain rfl : k = .text key := by
        cases k <;> simp_all [isText]
      rw [if_pos hk, if_pos hk, Option.map_some]
    · rw [if_neg hk, if_neg hk]

theorem map_flagged_data (o : Option Document) : o.map (flagged .data) = o :=
  (Option.map_congr fun d _ => flagged_data d).trans Option.map_id'

/-- A type that is named besides null is a text other than null, in a list of two. -/
theorem eq_of_typeBesideNull? {d : Document} {type : String} (h : typeBesideNull? d = some type) :
    type ≠ "null" ∧ (d = .array [.text type, .text "null"] ∨ d = .array [.text "null", .text type]) := by
  unfold typeBesideNull? at h
  split at h
  · rename_i a b
    by_cases hab : (a ≠ "null" && b = "null") = true
    · rw [if_pos hab] at h
      simp only [Bool.and_eq_true, decide_eq_true_eq] at hab
      cases h
      exact ⟨hab.1, .inl (by rw [hab.2])⟩
    · rw [if_neg hab] at h
      by_cases hba : (a = "null" && b ≠ "null") = true
      · rw [if_pos hba] at h
        simp only [Bool.and_eq_true, decide_eq_true_eq] at hba
        cases h
        exact ⟨hba.2, .inr (by rw [hba.1])⟩
      · rw [if_neg hba] at h
        cases h
  · cases h

/-- The flagged form of a schema is an object with the flagged forms of the schemas inside, or that
with the one type that is named besides null and the flag. -/
theorem flagged_schema_cases (fields : List (Document × Document)) :
    (((object fields).find? "type").bind typeBesideNull? = none ∧
      (object fields).flagged .schema = .object (flaggedFields .schema fields)) ∨
    ∃ list type, (object fields).find? "type" = some list ∧ typeBesideNull? list = some type ∧
      (object fields).flagged .schema = .object
        (putField (putField (flaggedFields .schema fields) (.text "type") (.text type))
          (.text "nullable") (.bool true)) := by
  have htype : (object (flaggedFields .schema fields)).find? "type" = (object fields).find? "type" := by
    rw [find?, find?, flaggedFields_eq_map, lookup?_flagged]
    exact map_flagged_data _
  rw [flagged, withFlag, htype]
  cases hfind : (object fields).find? "type" with
  | none => exact .inl ⟨rfl, rfl⟩
  | some list =>
    rw [Option.bind_some]
    cases hlist : typeBesideNull? list with
    | none => exact .inl ⟨rfl, rfl⟩
    | some type => exact .inr ⟨list, type, rfl, hlist, rfl⟩

/-- A keyword other than the two that spell nullability holds the flagged form of what it held. -/
theorem find?_flagged {key : String} (hkey : key ≠ "type") (hkey' : key ≠ "nullable")
    (d : Document) :
    (d.flagged .schema).find? key = (d.find? key).map (flagged (Spot.ofKeyword key)) := by
  cases d with
  | object fields =>
    have hinner : (object (flaggedFields .schema fields)).find? key =
        ((object fields).find? key).map (flagged (Spot.ofKeyword key)) := by
      rw [find?, find?, flaggedFields_eq_map, lookup?_flagged]
      rfl
    rcases flagged_schema_cases fields with ⟨_, heq⟩ | ⟨list, type, _, _, heq⟩
    · rw [heq, hinner]
    · rw [heq, find?, lookup?_putField, if_neg (Ne.symm hkey'), lookup?_putField,
        if_neg (Ne.symm hkey)]
      exact hinner
  | _ => rfl

/-- Data under another keyword are kept. -/
theorem find?_flagged_data {key : String} (hkey : key ≠ "type") (hkey' : key ≠ "nullable")
    (hdata : Spot.ofKeyword key = .data) (d : Document) :
    (d.flagged .schema).find? key = d.find? key := by
  rw [find?_flagged hkey hkey', hdata, map_flagged_data]

@[simp] theorem isObject_flagged (d : Document) : (d.flagged .schema).isObject = d.isObject := by
  cases d with
  | object fields =>
    rcases flagged_schema_cases fields with ⟨_, heq⟩ | ⟨_, _, _, _, heq⟩ <;> rw [heq] <;> rfl
  | _ => rfl

@[simp] theorem isNull_flagged (d : Document) : (d.flagged .schema).isNull = d.isNull := by
  cases d with
  | object fields =>
    rcases flagged_schema_cases fields with ⟨_, heq⟩ | ⟨_, _, _, _, heq⟩ <;> rw [heq] <;> rfl
  | _ => rfl

/-- A schema without keywords stays without, and one with keywords has some still. -/
theorem flagged_object_cons (f : Document × Document) (rest : List (Document × Document)) :
    ∃ f' rest', (object (f :: rest)).flagged .schema = .object (f' :: rest') := by
  have hput : ∀ (g : Document × Document) (fields : List (Document × Document)) (key x : Document),
      ∃ g' fields', putField (g :: fields) key x = g' :: fields' := by
    intro g fields key x
    rw [putField]
    split
    · exact ⟨_, _, rfl⟩
    · exact ⟨_, _, rfl⟩
  rcases flagged_schema_cases (f :: rest) with ⟨_, heq⟩ | ⟨_, type, _, _, heq⟩
  · exact ⟨_, _, heq⟩
  · obtain ⟨g, fields, hg⟩ := hput (f.1, f.2.flagged (Spot.schema.under f.1))
      (flaggedFields .schema rest) (.text "type") (.text type)
    obtain ⟨g', fields', hg'⟩ := hput g fields (.text "nullable") (.bool true)
    refine ⟨g', fields', ?_⟩
    rw [heq, flaggedFields, hg, hg']

/-- The fields of a map of schemas. -/
theorem fields?_flagged (d : Document) :
    (d.flagged .map).fields? = d.fields?.map (List.map fun p => (p.1, p.2.flagged .schema)) := by
  cases d with
  | object fields =>
    rw [flagged, flaggedFields_eq_map]
    rfl
  | _ => rfl

@[simp] theorem holds_flagged_map (d : Document) : (d.flagged .map).holds = d.holds := by
  cases d with
  | object fields =>
    rw [flagged, flaggedFields_eq_map]
    cases fields <;> rfl
  | _ => rfl

/-- What is a key is no schema. -/
theorem flagged_of_isKey {d : Document} (h : d.isKey = true) : d.flagged .schema = d := by
  cases d with
  | object => cases h
  | _ => rfl

/-- The elements of a list of schemas. What is no array and no pair has scalars for elements. -/
theorem elements?_flagged {d : Document} (hkeys : d.hasScalarKeys = true) :
    (d.flagged .list).elements? = d.elements?.map (List.map (flagged .schema)) := by
  have hsame : ∀ items : List Document, (∀ x ∈ items, x.isKey = true) →
      items = items.map (flagged .schema) := fun items h =>
    (List.map_id' items).symm.trans (List.map_congr_left fun x hx => (flagged_of_isKey (h x hx)).symm)
  cases d with
  | array items =>
    rw [flagged, flaggedItems_eq_map]
    rfl
  | pair a b => rfl
  | collection members =>
    exact congrArg some (hsame members (List.all_eq_true.mp hkeys))
  | object fields =>
    refine congrArg some (hsame _ fun x hx => ?_)
    obtain ⟨p, hp, rfl⟩ := List.mem_map.mp hx
    exact List.all_eq_true.mp hkeys p hp
  | text s =>
    refine congrArg some (hsame _ fun x hx => ?_)
    obtain ⟨c, _, rfl⟩ := List.mem_map.mp hx
    rfl
  | bytes bs =>
    refine congrArg some (hsame _ fun x hx => ?_)
    obtain ⟨b, _, rfl⟩ := List.mem_map.mp hx
    rfl
  | _ => rfl

/-! ## Nesting -/

mutual
/-- How many schemas stand inside each other in a value. Whatever is no object counts as one schema
where a schema is expected. -/
def levels : Spot → Document → Nat
  | .schema, .object fields => levelsOfFields .schema fields + 1
  | .schema, _ => 1
  | .list, .array items => levelsOfItems items
  | .list, .pair a b => max (a.levels .schema) (b.levels .schema)
  | .list, _ => 1
  | .map, .object fields => levelsOfFields .map fields
  | _, _ => 0

/-- The most levels of an element of a list of schemas. -/
def levelsOfItems : List Document → Nat
  | [] => 0
  | d :: rest => max (d.levels .schema) (levelsOfItems rest)

/-- The most levels of a value among the fields of a schema or of a map. -/
def levelsOfFields : Spot → List (Document × Document) → Nat
  | _, [] => 0
  | spot, (k, d) :: rest => max (d.levels (spot.under k)) (levelsOfFields spot rest)
end

theorem levels_le_of_mem_items {items : List Document} {x : Document} (h : x ∈ items) :
    x.levels .schema ≤ levelsOfItems items := by
  induction items with
  | nil => cases h
  | cons d rest ih =>
    rw [levelsOfItems]
    rcases List.mem_cons.mp h with rfl | h
    · exact Nat.le_max_left _ _
    · exact Nat.le_trans (ih h) (Nat.le_max_right _ _)

theorem levels_le_of_mem_fields (spot : Spot) {fields : List (Document × Document)}
    {k x : Document} (h : (k, x) ∈ fields) :
    x.levels (spot.under k) ≤ levelsOfFields spot fields := by
  induction fields with
  | nil => cases h
  | cons p rest ih =>
    obtain ⟨k', d⟩ := p
    rw [levelsOfFields]
    rcases List.mem_cons.mp h with heq | h
    · cases heq
      exact Nat.le_max_left _ _
    · exact Nat.le_trans (ih h) (Nat.le_max_right _ _)

theorem levels_pos (d : Document) : 0 < d.levels .schema := by
  cases d with
  | object => exact Nat.succ_pos _
  | _ => exact Nat.one_pos

/-- What is a key has no more levels than are expected of any schema. -/
theorem levels_of_isKey {d : Document} (h : d.isKey = true) : d.levels .schema = 1 := by
  cases d with
  | object => cases h
  | _ => rfl

/-- An element of a list of schemas has no more levels than the list. -/
theorem levels_le_of_elements? {d x : Document} {items : List Document}
    (hkeys : d.hasScalarKeys = true) (hitems : d.elements? = some items) (hx : x ∈ items) :
    x.levels .schema ≤ d.levels .list := by
  cases d with
  | array members =>
    cases hitems
    exact levels_le_of_mem_items hx
  | pair a b =>
    cases hitems
    show _ ≤ max (a.levels .schema) (b.levels .schema)
    rcases List.mem_pair.mp hx with rfl | rfl
    · exact Nat.le_max_left _ _
    · exact Nat.le_max_right _ _
  | collection members =>
    cases hitems
    exact Nat.le_of_eq (levels_of_isKey (List.all_eq_true.mp hkeys x hx))
  | object fields =>
    cases hitems
    obtain ⟨p, hp, rfl⟩ := List.mem_map.mp hx
    exact Nat.le_of_eq (levels_of_isKey (List.all_eq_true.mp hkeys p hp))
  | text s =>
    cases hitems
    obtain ⟨c, _, rfl⟩ := List.mem_map.mp hx
    exact Nat.le_refl 1
  | bytes bs =>
    cases hitems
    obtain ⟨b, _, rfl⟩ := List.mem_map.mp hx
    exact Nat.le_refl 1
  | _ => cases hitems

/-- Writing data anew leaves the levels alone. -/
theorem levelsOfFields_putField {keyword : String} (h : Spot.ofKeyword keyword = .data)
    (fields : List (Document × Document)) (x : Document) :
    levelsOfFields .schema (putField fields (.text keyword) x) = levelsOfFields .schema fields := by
  have hdata : ∀ d : Document, d.levels (Spot.schema.under (.text keyword)) = 0 := by
    intro d
    rw [Spot.under, h]
    cases d <;> rfl
  induction fields with
  | nil => simp only [putField, levelsOfFields, hdata, Nat.max_self]
  | cons p rest ih =>
    obtain ⟨k, y⟩ := p
    rw [putField, sameKey_text]
    by_cases hk : k.isText keyword = true
    · obtain rfl : k = .text keyword := by
        cases k <;> simp_all [isText]
      rw [if_pos hk, levelsOfFields, levelsOfFields, hdata, hdata]
    · rw [if_neg hk, levelsOfFields, levelsOfFields, ih]

mutual
/-- **The flagged form has the levels of the value.** -/
theorem levels_flagged : (spot : Spot) → (d : Document) → (d.flagged spot).levels spot = d.levels spot
  | spot, .object fields => by
    have hfields := levels_flaggedFields spot fields
    cases spot with
    | schema =>
      rcases flagged_schema_cases fields with ⟨_, heq⟩ | ⟨list, type, _, _, heq⟩
      · rw [heq, levels, levels, hfields]
      · rw [heq, levels, levels, levelsOfFields_putField rfl, levelsOfFields_putField rfl, hfields]
    | map => simpa only [flagged, levels] using hfields
    | _ => rfl
  | spot, .array items => by
    have hitems := levels_flaggedItems items
    cases spot with
    | list => simpa only [flagged, levels] using hitems
    | _ => rfl
  | spot, .pair a b => by
    have ha := levels_flagged .schema a
    have hb := levels_flagged .schema b
    cases spot with
    | list => simp only [flagged, levels, ha, hb]
    | _ => rfl
  | spot, .null | spot, .bool _ | spot, .int _ | spot, .float _ | spot, .text _ | spot, .bytes _
  | spot, .moment _ | spot, .collection _ | spot, .loop _ => by cases spot <;> rfl

theorem levels_flaggedItems :
    (items : List Document) → levelsOfItems (flaggedItems items) = levelsOfItems items
  | [] => rfl
  | d :: rest => by
    rw [flaggedItems, levelsOfItems, levelsOfItems, levels_flagged .schema d, levels_flaggedItems rest]

theorem levels_flaggedFields : (spot : Spot) → (fields : List (Document × Document)) →
    levelsOfFields spot (flaggedFields spot fields) = levelsOfFields spot fields
  | _, [] => rfl
  | spot, (k, d) :: rest => by
    rw [flaggedFields, levelsOfFields, levelsOfFields, levels_flagged (spot.under k) d,
      levels_flaggedFields spot rest]
end

mutual
/-- There are no more levels of schemas than of values. -/
theorem levels_le_depth : (spot : Spot) → (d : Document) → d.levels spot ≤ d.depth + 1
  | spot, .object fields => by
    have hfields := levelsOfFields_le_depth spot fields
    cases spot <;> simp only [levels, depth] <;> omega
  | spot, .array items => by
    have hitems := levelsOfItems_le_depth items
    cases spot <;> simp only [levels, depth] <;> omega
  | spot, .pair a b => by
    have ha := levels_le_depth .schema a
    have hb := levels_le_depth .schema b
    cases spot <;> simp only [levels, depth] <;> omega
  | spot, .null | spot, .bool _ | spot, .int _ | spot, .float _ | spot, .text _ | spot, .bytes _
  | spot, .moment _ | spot, .collection _ | spot, .loop _ => by cases spot <;> simp [levels]

theorem levelsOfItems_le_depth : (items : List Document) →
    levelsOfItems items ≤ depthOfItems items + 1
  | [] => by simp [levelsOfItems]
  | d :: rest => by
    have hd := levels_le_depth .schema d
    have hrest := levelsOfItems_le_depth rest
    simp only [levelsOfItems, depthOfItems]
    omega

theorem levelsOfFields_le_depth : (spot : Spot) → (fields : List (Document × Document)) →
    levelsOfFields spot fields ≤ depthOfFields fields + 1
  | _, [] => by simp [levelsOfFields]
  | spot, (k, d) :: rest => by
    have hd := levels_le_depth (spot.under k) d
    have hrest := levelsOfFields_le_depth spot rest
    simp only [levelsOfFields, depthOfFields]
    omega
end

end Document

end TypedApi
