import TypedApi.Proofs.Signature.Declarations
import Mathlib.Data.List.Perm.Basic
/-!
The parameters that an operation keeps.

The declared parameters stand in their order, and besides they are sorted by
location: one object has a member for each parameter in the path, one for each
parameter in the query, and a table has the headers. These tables are keyed by
the name alone. Parameters that differ in name or location differ in name where
the location is the same, so the tables have all of them, in order.
-/

set_option autoImplicit false

namespace TypedApi.Operation

open Build

/-! ## Sorting by location -/

/-- The parameters at a location, in order. -/
def parametersAt (location : Location) (declared : List Parameter) : List Parameter :=
  declared.filter (·.location = location)

/-- No parameter is lost or listed twice when they are sorted by location. -/
theorem perm_parametersAt (declared : List Parameter) :
    (parametersAt .path declared ++ parametersAt .query declared ++
      parametersAt .header declared).Perm declared := by
  induction declared with
  | nil => exact .nil
  | cons p declared ih =>
    simp only [parametersAt, List.append_assoc] at ih ⊢
    -- the parameter comes to the front from where its location puts it
    cases hlocation : p.location with
    | path => simpa [hlocation] using ih
    | query =>
      simp only [List.filter_cons, hlocation]
      exact List.perm_middle.trans (ih.cons p)
    | header =>
      simp only [List.filter_cons, hlocation]
      rw [← List.append_assoc] at ih ⊢
      exact List.perm_middle.trans (ih.cons p)

/-- Writing entries with different keys, none of them taken, puts them at the end. -/
theorem foldl_insert_of_nodup {α β : Type} {key : α → String} {value : α → β} {l : List α}
    {t : Table β} (hl : (l.map key).Nodup) (ht : ∀ a ∈ l, key a ∉ t.keys) :
    l.foldl (fun t a => t.insert (key a) (value a)) t = t ++ l.map fun a => (key a, value a) := by
  induction l generalizing t with
  | nil => simp
  | cons a l ih =>
    rw [List.map_cons, List.nodup_cons] at hl
    have hinsert := Table.insert_of_get?_eq_none t (key a) (value a)
      (Table.get?_eq_none_iff.mpr (ht a List.mem_cons_self))
    have hfree : ∀ b ∈ l, key b ∉ (t ++ [(key a, value a)] : Table β).keys := by
      intro b hb hmem
      rw [Table.keys, List.map_append, List.mem_append] at hmem
      rcases hmem with hmem | hmem
      · exact ht b (List.mem_cons_of_mem _ hb) hmem
      · have hsame : key b = key a := List.mem_singleton.mp hmem
        exact hl.1 (hsame ▸ List.mem_map_of_mem hb)
    rw [List.foldl_cons, hinsert, ih hl.2 hfree, List.append_assoc]
    rfl

/-- Parameters that differ in name or location differ in name where the location is the same. -/
theorem nodup_specNames {declared : List Parameter} (location : Location)
    (h : (declared.map fun p => (p.specName, p.location)).Nodup) :
    ((parametersAt location declared).map Parameter.specName).Nodup := by
  have hsub := ((List.filter_sublist (p := (·.location = location))).map
    fun p : Parameter => (p.specName, p.location)).nodup h
  have hsame : (parametersAt location declared).map (fun p => (p.specName, p.location)) =
      ((parametersAt location declared).map Parameter.specName).map (·, location) := by
    rw [List.map_map]
    refine List.map_congr_left fun p hp => ?_
    have hlocation : p.location = location := by simpa using (List.mem_filter.mp hp).2
    simp [hlocation]
  exact List.Nodup.of_map _ (hsame ▸ hsub)

/-- The members for a location are those of its parameters, each under its name. -/
theorem membersAt_eq {declared : List Parameter} (location : Location)
    (h : (declared.map fun p => (p.specName, p.location)).Nodup) :
    membersAt location declared =
      (parametersAt location declared).map fun p => (p.specName, parameterMember p) :=
  foldl_insert_of_nodup (nodup_specNames location h) (by simp [Table.keys])

theorem headerTable_eq {declared : List Parameter}
    (h : (declared.map fun p => (p.specName, p.location)).Nodup) :
    headerTable declared = (parametersAt .header declared).map fun p => (p.specName, p) :=
  foldl_insert_of_nodup (nodup_specNames .header h) (by simp [Table.keys])

/-- The table of headers has one for content types if a declared header is named like it in some
letter case. -/
theorem declaresAccept_iff {declared : List Parameter}
    (h : (declared.map fun p => (p.specName, p.location)).Nodup) :
    declaresAccept (headerTable declared) = true ↔
      ∃ p ∈ parametersAt .header declared, Text.lowerAscii p.specName = "accept" := by
  rw [declaresAccept, headerTable_eq h, Table.keys, List.map_map, List.any_map, List.any_eq_true]
  simp only [Function.comp, decide_eq_true_eq]

/-- One object has exactly the members, and there is none if there are no members. -/
structure Gathers (m : Model) (object : Option Ref) (members : Table Member) : Prop where
  eq_none_iff : object = none ↔ members = []
  shows : ∀ r, object = some r → m.Shows r (.object members)

theorem gathers_of_combine {kind specName label : String} {members : Table Member}
    {object : Option Ref} {w w' : Workbench}
    (h : exec (combine kind specName label members) w = (.ok object, w')) :
    Gathers w'.model object members := by
  rw [combine] at h
  split at h
  · rename_i hempty
    cases h
    exact ⟨by simpa using hempty, by simp⟩
  · rename_i hne
    obtain ⟨r, u, hadd, h⟩ := of_exec_bind_ok h
    cases h
    refine ⟨by simpa using hne, ?_⟩
    rintro _ ⟨⟩
    exact Model.shows_of_addItem hadd

/-- How an operation keeps its parameters: the implicit header first, if there is one, the declared
ones behind it, and each of these at its location. A parameter in the path is never left out, and
one in the query may be if it is not required. No declared header stands beside an implicit one
that has its name in any letter case. -/
structure Arranged (m : Model) (o : Operation) (accept declared : List Parameter) : Prop where
  implicit : accept = [] ∨ ∃ item, accept = [implicitParameter item] ∧
    ∀ p ∈ parametersAt .header declared, Text.lowerAscii p.specName ≠ "accept"
  parameters_eq : o.parameters = accept ++ declared
  distinct : (declared.map fun p => (p.specName, p.location)).Nodup
  sorted : (parametersAt .path declared ++ parametersAt .query declared ++
    parametersAt .header declared).Perm declared
  path : Gathers m o.pathParameters ((parametersAt .path declared).map fun p =>
    (p.specName, { definition := p.item, inlineOption := false }))
  query : Gathers m o.queryParameters ((parametersAt .query declared).map fun p =>
    (p.specName, { definition := p.item, inlineOption := !p.required }))
  headers_eq : o.headers = (accept ++ parametersAt .header declared).map fun p => (p.specName, p)

theorem Gathers.steps {S : Standard} {m m' : Model} {object : Option Ref} {members : Table Member}
    (h : Gathers m object members) (hsteps : Steps S m m') : Gathers m' object members :=
  ⟨h.eq_none_iff, fun r hr => (h.shows r hr).steps hsteps⟩

variable {document path pathItem operation : Document} {verb : Verb} {w w' : Workbench}
  {o : Operation}

/-- A parameter in the path is required, whatever it says. -/
theorem required_of_path {d : Declaration} {item : Ref} (hd : Declaration.Of document d.entry d)
    (hpath : (d.parameter item).location = .path) : (d.parameter item).required = true := by
  have hlocation : locationOf d.param = .text "path" := by
    rw [hd.location_eq, show d.location = .path from hpath]
    rfl
  simp [Declaration.parameter, isRequired, hlocation, Document.isText]

/-- Each declaration that counts makes a parameter with its name and location. -/
theorem keys_of_sourced {all chosen : List Declaration} {declared : List Parameter}
    (h : Declaration.Sourced document pathItem operation w w' all chosen declared) :
    declared.map (fun p => (p.specName, p.location)) = chosen.map Declaration.key := by
  rw [← List.forall₂_eq_eq_eq, List.forall₂_map_left_iff, List.forall₂_map_right_iff]
  refine (h.made.imp fun d p hp => ?_).flip
  rw [hp]
  rfl

/-- The declared parameters of an operation differ in name or location. -/
theorem distinct_of_parametersOf {declared : List Parameter}
    (h : exec (parametersOf document pathItem operation) w = (.ok declared, w')) :
    (declared.map fun p => (p.specName, p.location)).Nodup := by
  obtain ⟨_, _, hsourced⟩ := Declaration.exists_sourced h
  rw [keys_of_sourced hsourced]
  exact hsourced.merges.nodup

/-- **The parameters of an operation.** Of the declarations with one name and one location there is
one parameter, where the first of them stands and as the last of them says. The operation keeps all
of these, in order and by location, behind the implicit header. -/
theorem parameters_arranged
    (h : exec (create document path verb pathItem operation) w = (.ok o, w')) :
    ∃ all chosen accept declared afterDeclared,
      Declaration.Sourced document pathItem operation w afterDeclared all chosen declared ∧
      Arranged w'.model o accept declared := by
  obtain ⟨parts⟩ := exists_parts h
  obtain ⟨all, chosen, hsourced⟩ := Declaration.exists_sourced parts.declared_exec
  obtain ⟨_, _, _, _, hall⟩ := hsourced.entries
  have hdistinct := distinct_of_parametersOf parts.declared_exec
  have hrequired : ∀ p ∈ parametersAt .path parts.declared, p.required = true := by
    intro p hp
    obtain ⟨hp, hlocation⟩ := List.mem_filter.mp hp
    obtain ⟨d, hd, heq⟩ := exists_of_mem_forall₂_right hsourced.made hp
    rw [heq] at hlocation ⊢
    exact required_of_path (hsourced.merges.of_mem hall hd) (of_decide_eq_true hlocation)
  refine ⟨all, chosen, parts.accept, parts.declared, parts.afterDeclared, hsourced, {
    implicit := ?_
    parameters_eq := parts.parameters_eq
    distinct := hdistinct
    sorted := perm_parametersAt _
    path := ?_
    query := ?_
    headers_eq := ?_ }⟩
  · rcases implicitHeaders_cases parts.accept_exec with ⟨hnone, _⟩ | ⟨p, hp, haccept, hfree, _⟩
    · exact .inl hnone
    · obtain ⟨item, rfl, _⟩ := acceptParameter_cases haccept
      refine .inr ⟨item, hp, fun q hq hname => ?_⟩
      rw [(declaresAccept_iff hdistinct).mpr ⟨q, hq, hname⟩] at hfree
      cases hfree
  · have hmembers := (gathers_of_combine parts.path_exec).steps parts.steps_path
    have hsame : (parametersAt .path parts.declared).map (fun p => (p.specName, parameterMember p)) =
        (parametersAt .path parts.declared).map fun p =>
          (p.specName, { definition := p.item, inlineOption := false }) :=
      List.map_congr_left fun p hp => by simp [parameterMember, hrequired p hp]
    rwa [membersAt_eq _ hdistinct, hsame] at hmembers
  · have hmembers := (gathers_of_combine parts.query_exec).steps parts.steps_query
    rwa [membersAt_eq _ hdistinct] at hmembers
  · rw [parts.headers_eq, headerTable_eq hdistinct, List.map_append]

/-! ## Overridden parameters -/

/-- A parameter with a name and a location, some further fields, and texts for values. -/
def textParameter (name location : String) (more : List (Document × Document)) : Document :=
  .object ([(.text "name", .text name), (.text "in", .text location),
    (.text "schema", .object [(.text "type", .text "string")])] ++ more)

/-- A document with one shared parameter, required in the query. -/
def limitedDocument : Document :=
  .object [(.text "components", .object [(.text "parameters", .object
    [(.text "Limit", textParameter "limit" "query" [(.text "required", .bool true)])])])]

/-- A workbench on which the shared parameter has been lowered. -/
def limitedWorkbench : Workbench :=
  (exec (insertComponentParameter "#/components/parameters/Limit"
    (textParameter "limit" "query" [(.text "required", .bool true)])) {}).2

/-- A path with an identifier, and a limit that may be left out. -/
def limitedPath : Document :=
  .object [(.text "parameters", .array
    [textParameter "id" "path" [], textParameter "limit" "query" []])]

/-- An operation on it with the shared limit, and with a header that is named like the identifier. -/
def limitedOperation : Document :=
  .object [(.text "parameters", .array
    [textParameter "id" "header" [],
      .object [(.text "$ref", .text "#/components/parameters/Limit")]])]

/-- The limit stands where the path has it and is required as the operation has it. -/
theorem parameters_overridden :
    ∃ o w', exec (create limitedDocument (.text "/items") .get limitedPath limitedOperation)
        limitedWorkbench = (.ok o, w') ∧
      o.parameters.map (fun p => (p.specName, p.location, p.required)) =
        [("id", .path, true), ("limit", .query, true), ("id", .header, false)] ∧
      ∃ all chosen accept declared afterDeclared,
        Declaration.Sourced limitedDocument limitedPath limitedOperation limitedWorkbench
          afterDeclared all chosen declared ∧
        Arranged w'.model o accept declared := by
  have hrun : (exec (create limitedDocument (.text "/items") .get limitedPath limitedOperation)
      limitedWorkbench).1.toOption.map
        (fun o => o.parameters.map fun p => (p.specName, p.location, p.required)) =
      some [("id", .path, true), ("limit", .query, true), ("id", .header, false)] := by
    decide +kernel
  obtain ⟨o, ho, hparameters⟩ := exists_of_toOption_map hrun
  have hcreate : exec (create limitedDocument (.text "/items") .get limitedPath limitedOperation)
      limitedWorkbench = (.ok o, _) := Prod.ext ho rfl
  exact ⟨o, _, hcreate, hparameters, parameters_arranged hcreate⟩

end TypedApi.Operation
