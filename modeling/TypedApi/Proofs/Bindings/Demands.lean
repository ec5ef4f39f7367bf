import TypedApi.Proofs.Bindings.Total
import TypedApi.Proofs.Graph.Isomorphic
import TypedApi.Proofs.Signature.Omission
import TypedApi.Proofs.Signature.Parameters
import TypedApi.Proofs.Signature.Shared
/-!
What a call must give.

The document says of an operation what a call must give: the path always, the
query if some parameter in it is required, each header if it is required, and the
body if it is. The first three are kept as they are said, each in its own field,
and the method asks for exactly that. Whether the body must be given is kept as
whether its item admits null, and so a schema that admits null has a say in it.
-/

set_option autoImplicit false

namespace TypedApi

open Build

/-! ## Finished items -/

@[simp] theorem Shape.hasRequired_relocate (g : Ref → Ref) (shape : Shape) :
    (shape.relocate g).hasRequired = shape.hasRequired := by
  cases shape <;> simp [relocate, hasRequired, Function.comp_def]

@[simp] theorem Shape.hasRequired_unnamed (shape : Shape) :
    shape.unnamed.hasRequired = shape.hasRequired := by
  cases shape <;> rfl

/-- Whether some field of an item must be given is kept. -/
theorem Shape.Stays.hasRequired_eq {m m' : Model} {shape shape' : Shape}
    (h : shape.Stays m m' shape') : shape'.hasRequired = shape.hasRequired := by
  rcases h with ⟨_, rfl⟩ | ⟨_, _, g, _, heq⟩
  · rfl
  · rw [← hasRequired_unnamed, heq, hasRequired_unnamed, hasRequired_relocate]

namespace Operation

/-! ## What is declared -/

/-- The declarations at a location, in order. -/
def declarationsAt (location : Location) (chosen : List Declaration) : List Declaration :=
  chosen.filter (·.location = location)

/-- The declarations that count for an operation: of those of its path and its own, read through
references, the last with each name and location. -/
def Counts (document pathItem operation : Document) (chosen : List Declaration) : Prop :=
  ∃ pathEntries ownEntries all, Declaration.entriesOf? pathItem = some pathEntries ∧
    Declaration.entriesOf? operation = some ownEntries ∧
    List.Forall₂ (Declaration.Of document) (pathEntries ++ ownEntries) all ∧
    Declaration.Merges all chosen

/-- Whether a call must give some declaration. -/
def anyRequired (chosen : List Declaration) : Bool :=
  chosen.any fun d => isRequired d.param

/-- What an operation has for the declarations that count: an object for those in the path if there
are any, one for those in the query, some field of which must be given exactly if one of them is
required, and the headers, the implicit one in front, as they are required. -/
structure Declares (m : Model) (o : Operation) (chosen : List Declaration) (implicit : Bool) :
    Prop where
  path : o.pathParameters.isNone = (declarationsAt .path chosen).isEmpty
  query : o.queryParameters.isNone = (declarationsAt .query chosen).isEmpty
  query_finds : ∀ r, o.queryParameters = some r →
    m.Finds r (·.shape.hasRequired = anyRequired (declarationsAt .query chosen))
  headers : o.headers.map (fun p => (p.2.generatedName, p.2.required)) =
    (if implicit then [("accept", false)] else []) ++
      (declarationsAt .header chosen).map fun d =>
        (Name.escape (Name.snake d.name), isRequired d.param)

variable {document path pathItem operation : Document} {verb : Verb} {w w' : Workbench}
  {o : Operation}

/-- Sorting by location leaves each parameter with its declaration. -/
theorem map_parametersAt {β : Type} {chosen : List Declaration} {declared : List Parameter}
    (location : Location) {f : Parameter → β} {g : Declaration → β}
    (hfg : ∀ d item, f (Declaration.parameter d item) = g d)
    (h : List.Forall₂ (fun d p => p = Declaration.parameter d p.item) chosen declared) :
    (parametersAt location declared).map f = (declarationsAt location chosen).map g := by
  induction h with
  | nil => rfl
  | @cons d p chosen declared hp _ ih =>
    have hlocation : p.location = d.location := by rw [hp]; rfl
    have hvalue : f p = g d := by rw [hp, hfg]
    rw [parametersAt, declarationsAt] at ih ⊢
    by_cases hat : d.location = location
    · simp [hlocation, hat, hvalue, ih]
    · simp [hlocation, hat, ih]

theorem isEmpty_parametersAt {chosen : List Declaration} {declared : List Parameter}
    (location : Location)
    (h : List.Forall₂ (fun d p => p = Declaration.parameter d p.item) chosen declared) :
    (parametersAt location declared).isEmpty = (declarationsAt location chosen).isEmpty := by
  have hunits := congrArg List.isEmpty
    (map_parametersAt location (f := fun _ => ()) (g := fun _ => ()) (fun _ _ => rfl) h)
  rwa [List.isEmpty_map, List.isEmpty_map] at hunits

/-- There is an object exactly if there are members for it. -/
theorem Gathers.isNone_eq {m : Model} {object : Option Ref} {members : Table Member}
    (h : Gathers m object members) : object.isNone = members.isEmpty := by
  rw [Bool.eq_iff_iff, Option.isNone_iff_eq_none, List.isEmpty_iff]
  exact h.eq_none_iff

/-- **An operation has what is declared for it.** -/
theorem exists_declares (h : exec (create document path verb pathItem operation) w = (.ok o, w')) :
    ∃ chosen implicit, Counts document pathItem operation chosen ∧
      Declares w'.model o chosen implicit := by
  obtain ⟨parts⟩ := exists_parts h
  obtain ⟨all, chosen, hsourced⟩ := Declaration.exists_sourced parts.declared_exec
  obtain ⟨pathEntries, ownEntries, hpathEntries, hownEntries, hall⟩ := hsourced.entries
  have hdistinct := distinct_of_parametersOf parts.declared_exec
  have hpath := gathers_of_combine parts.path_exec
  have hquery := (gathers_of_combine parts.query_exec).steps parts.steps_query
  rw [membersAt_eq _ hdistinct] at hpath hquery
  obtain ⟨implicit, haccept⟩ : ∃ implicit : Bool,
      parts.accept.map (fun p => (p.generatedName, p.required)) =
        if implicit then [("accept", false)] else [] := by
    rcases implicitHeaders_cases parts.accept_exec with ⟨hnone, _⟩ | ⟨p, hp, hmade, _⟩
    · exact ⟨false, by rw [hnone]; rfl⟩
    · obtain ⟨item, rfl, _⟩ := acceptParameter_cases hmade
      exact ⟨true, by rw [hp]; rfl⟩
  refine ⟨chosen, implicit, ⟨pathEntries, ownEntries, all, hpathEntries, hownEntries, hall,
    hsourced.merges⟩, ⟨?_, ?_, fun r hr => ?_, ?_⟩⟩
  · rw [hpath.isNone_eq, List.isEmpty_map, isEmpty_parametersAt _ hsourced.made]
  · rw [hquery.isNone_eq, List.isEmpty_map, isEmpty_parametersAt _ hsourced.made]
  · obtain ⟨i, item, hindex, hitem, hshape⟩ := hquery.shows r hr
    refine ⟨i, item, hindex, hitem, ?_⟩
    have hrequired := map_parametersAt .query (f := Parameter.required)
      (g := fun d => isRequired d.param) (fun _ _ => rfl) hsourced.made
    calc item.shape.hasRequired
        = ((parametersAt .query parts.declared).map Parameter.required).any id := by
          rw [hshape, Shape.hasRequired, List.any_map, List.any_map]
          simp [Function.comp_def, parameterMember]
      _ = anyRequired (declarationsAt .query chosen) := by
          rw [hrequired, List.any_map]
          rfl
  · have hheaders := map_parametersAt .header (f := fun p => (p.generatedName, p.required))
      (g := fun d => (Name.escape (Name.snake d.name), isRequired d.param))
      (fun d item => by simp only [Declaration.parameter]) hsourced.made
    rw [parts.headers_eq, headerTable_eq hdistinct, List.map_append, List.map_map, List.map_map,
      ← haccept, ← hheaders]
    rfl

end Operation

namespace Bindings

open Operation

variable {m m' : Model} {r r' : Ref} {o : Operation} {document : Document}

/-! ## What is asked for -/

theorem resolve_of_finds {P : Item → Prop} (h : m.Finds r P) :
    ∃ item, m.resolve r = .ok item ∧ P item := by
  obtain ⟨i, item, hindex, hitem, hp⟩ := h
  exact ⟨item, by rw [Model.resolve, hindex]; exact Model.itemAt_natCast hitem, hp⟩

theorem needsQuery_of_finds {b : Bool} (h : m.Finds r (·.shape.hasRequired = b)) :
    needsQuery m r = b := by
  obtain ⟨item, hitem, hb⟩ := resolve_of_finds h
  rw [needsQuery, hitem]
  exact hb

theorem needsBody_of_finds {b : Bool} (h : m.Finds r (·.nullable = b)) : needsBody m r = !b := by
  obtain ⟨item, hitem, hb⟩ := resolve_of_finds h
  rw [needsBody, hitem]
  exact congrArg (!·) hb

theorem needsBody_congr (h : m.indexOf r = m.indexOf r') : needsBody m r = needsBody m r' := by
  rw [needsBody, Model.resolve, h]
  rfl

/-! ## What the document demands -/

/-- Whether a call must give the request body of an operation, `none` if there is none to give. A
reference that leads to no shared body leads to something else that is shared, and then it is that
item which admits null or not. -/
def bodyDemand (document : Document) (m : Model) (verb : Verb) (operation : Document) :
    Option Bool :=
  let body := requestBodyOf operation
  if body.isNull || !verb.admitsBody then none
  else
    match meantBody (sharedBodies document) body with
    | some meant => some !mayOmit meant
    | none => some (needsBody m (.forward (((body.find? "$ref").bind Document.text?).getD "")))

/-- What a call is asked for, in order: the names, and whether it must be given. The path is never
left out, the query if none of its parameters is required, a header if it is not required. -/
def demands (chosen : List Declaration) (implicit : Bool) (body : Option Bool) :
    List (String × Bool) :=
  (if (declarationsAt .path chosen).isEmpty then [] else [("path", true)]) ++
    (if (declarationsAt .query chosen).isEmpty then []
      else [("query", anyRequired (declarationsAt .query chosen))]) ++
    body.toList.map (fun needed => ("body", needed)) ++
    ((if implicit then [("accept", false)] else []) ++
      (declarationsAt .header chosen).map fun d =>
        (Name.escape (Name.snake d.name), isRequired d.param))

/-- An argument for a demand: named after it, and to be given if it is demanded so. -/
structure Meets (demand : String × Bool) (a : Argument) : Prop where
  name : ∃ taken, a.name = Name.deconflict demand.1 taken
  required : a.required = demand.2

/-- A method for an operation of the document: it has one argument for each demand, in order, but
those that a call may leave out after the others. -/
def CallFor (document : Document) (m : Model) (t : Turn document) (method : Method) : Prop :=
  ∃ chosen implicit given, Counts document t.pathItem t.source chosen ∧
    List.Forall₂ Meets (demands chosen implicit (bodyDemand document m t.verb t.source)) given ∧
    method.arguments = given.filter (·.required) ++ given.filter (!·.required)

/-- What refers to the item of a path leads, in the end, where the path leads. -/
theorem indexOf_settle_back {p : Model} {target : String} {index : Int} (hpending : p.Pending)
    (hfinish : p.finish = (m, none)) (h : p.indexOf (.forward target) = .ok index) :
    m.indexOf (settle p.resolved (.back index)) = m.indexOf (.forward target) := by
  obtain ⟨hlow, hhigh⟩ := p.inRange_of_indexOf_eq_ok hpending.registered h
  obtain ⟨i, rfl⟩ := Int.eq_ofNat_of_zero_le hlow
  have hi : i < p.size := by omega
  rw [Model.indexOf_settle (Model.indexOf_back hi) hi hfinish]
  exact ((Model.kept_of_finish hfinish).indexOf h).symm

/-- The body of an operation is asked for as it is demanded. -/
theorem needsBody_eq_bodyDemand {p : Model} {t : Turn document} (hpending : p.Pending)
    (hfinish : p.finish = (m, none)) (hsteps : Steps .anything t.after.model p)
    (hbodies : KeepsBodies (sharedBodies document) m) :
    t.operation.requestBody.map (fun r => needsBody m (settle p.resolved r)) =
      bodyDemand document m t.verb t.source := by
  obtain ⟨parts⟩ := exists_parts t.create_eq
  have hafter : parts.afterBody.model.Kept p :=
    Steps.kept (parts.steps_body.trans hsteps)
  have hbefore : parts.afterQuery.model.Kept p :=
    Steps.kept (parts.steps_query.trans hsteps)
  rw [bodyDemand]
  rcases bodyOf_cases parts.body_exec with ⟨hnone, hanswer⟩ |
    ⟨hsome, ⟨target, index, href, htarget, hanswer⟩ | ⟨href, r, hanswer, hfinds⟩⟩
  · rw [if_pos hnone, hanswer]
    rfl
  · rw [if_neg (Bool.eq_false_iff.mp hsome), hanswer]
    have hsame := indexOf_settle_back hpending hfinish (hbefore.indexOf htarget)
    rw [Option.map_some, needsBody_congr hsame]
    have hmeant : meantBody (sharedBodies document) (requestBodyOf t.source) =
        (sharedBodies document).get? target := by
      rw [meantBody, href]
      rfl
    cases hget : (sharedBodies document).get? target with
    | none =>
      rw [hmeant, hget, href]
      rfl
    | some body =>
      rw [hmeant, hget, needsBody_of_finds (hbodies target body hget)]
  · rw [if_neg (Bool.eq_false_iff.mp hsome), hanswer, meantBody, href]
    have hfinal := (hfinds.kept hafter fun _ _ hstays _ => hstays.nullable_of).settle hfinish
      fun _ _ hstays _ => hstays.nullable_of
    rw [Option.map_some, needsBody_of_finds hfinal]

/-- **What is asked for is what is demanded.** -/
theorem asked_eq_demands {p : Model} {t : Turn document} {chosen : List Declaration}
    {implicit : Bool} (hpending : p.Pending) (hfinish : p.finish = (m, none))
    (hsteps : Steps .anything t.after.model p) (hbodies : KeepsBodies (sharedBodies document) m)
    (h : Declares t.after.model t.operation chosen implicit) :
    (asked m (t.operation.relocate (settle p.resolved))).map (fun q => (q.name, q.required)) =
      demands chosen implicit (bodyDemand document m t.verb t.source) := by
  have hpath : t.operation.pathParameters.toList.map (fun _ => (("path", true) : String × Bool)) =
      if (declarationsAt .path chosen).isEmpty then [] else [("path", true)] := by
    rw [← h.path]
    cases t.operation.pathParameters <;> rfl
  have hquery : t.operation.queryParameters.toList.map
        (fun r => ("query", needsQuery m (settle p.resolved r))) =
      if (declarationsAt .query chosen).isEmpty then []
      else [("query", anyRequired (declarationsAt .query chosen))] := by
    rw [← h.query]
    cases hobject : t.operation.queryParameters with
    | none => rfl
    | some r =>
      have hfinds := (h.query_finds r hobject).kept hsteps.kept
        fun _ _ _ hshape ha => hshape.hasRequired_eq.trans ha
      have hfinal := hfinds.settle hfinish fun _ _ _ hshape ha => hshape.hasRequired_eq.trans ha
      rw [Option.toList_some, List.map_singleton, needsQuery_of_finds hfinal]
      rfl
  have hbody := congrArg (fun body => body.toList.map fun needed => ("body", needed))
    (needsBody_eq_bodyDemand hpending hfinish hsteps hbodies)
  have hheaders := h.headers
  simp only [Option.toList_map, List.map_map, Function.comp_def] at hbody
  simp only [demands, asked, relocate, List.map_append, List.map_map, Option.toList_map,
    Function.comp_def, ← hpath, ← hquery, ← hbody, ← hheaders, Parameter.relocate]

end Bindings

namespace Conversion

open Bindings Operation

variable {document : Document} {options : ConversionOptions} {docs : Option Docs.Fetcher}

/-- What the shared bodies lead to at the end of a construction. -/
theorem keepsBodies_of_construct {w : Workbench}
    (h : exec (construct document) (start options docs) = (.ok (), w)) :
    KeepsBodies (sharedBodies document) w.model := by
  obtain ⟨_, _, bodies, responses, headers, _, _, u₂, u₃, u₄, u₅, u₆, _, _, ⟨hbodies, hloop₃⟩,
    ⟨_, hloop₄⟩, ⟨_, hloop₅⟩, hloop₆, hlast⟩ := exists_all_stages h
  have hresponses : Keeps (Steps .anything) (responses.forM (insertResponse document)) :=
    .forM fun e _ => .of_along fun _ => insertResponse_along document e
  have hheaders : Keeps (Steps .anything) (headers.forM (insertHeader document)) :=
    .forM fun e _ => .of_along fun _ => insertHeader_along document e
  have hoperations : Keeps (Steps .anything) (insertAll document) :=
    .of_along fun _ => insertAll_along document
  have hsteps : Steps .anything u₃.model u₆.model :=
    ((hresponses.of_exec hloop₄).trans (hheaders.of_exec hloop₅)).trans (hoperations.of_exec hloop₆)
  have hstart : KeepsBodies [] u₂.model := fun path body hget => by cases hget
  rw [hlast, sharedBodies, hbodies]
  exact (hstart.forM hloop₃).kept hsteps.kept

/-- **A call must give what the document demands.** Each operation of a document that is converted
and rendered has a method, in order, and the method has an argument for each demand of the
operation: the path is always to be given, the query exactly if one of the parameters in it that
count is required, each header exactly if it is required, and the body exactly if the body that is
written out or referred to is required and is not of one schema that is written out and admits
null. -/
theorem calls_of_run {m : Model} {emitDocs : Bool} {b : Bindings}
    (hrun : (run document options docs).1 = .ok m) (hb : ofModel m emitDocs = .ok b) :
    ∃ v ts v' g, Turns document v ts v' ∧
      m.operations = ts.map (fun t => t.operation.relocate g) ∧
      List.Forall₂ (CallFor document m) ts b.methods := by
  obtain ⟨w, hconstruct, hfinish⟩ := run_eq_ok_iff.mp hrun
  have hpending := pending_construct document options docs
  rw [hconstruct] at hpending
  have hclosed : m.Closed := hpending.closed_of_finish_eq hfinish
  obtain ⟨_, _, _, v, v', ts, _, _, _, _, hnone, _, hturns, hlast⟩ :=
    exists_turns_of_construct hconstruct
  have hoperations : m.operations =
      ts.map fun t => t.operation.relocate (settle w.model.resolved) := by
    have hfinished := (Model.Pending.finished hpending (congrArg Prod.snd hfinish)).operations
    rw [hfinish] at hfinished
    rw [hfinished, hlast, hturns.operations_eq, hnone, List.nil_append, List.map_map]
    rfl
  have hbodies : KeepsBodies (sharedBodies document) m :=
    (keepsBodies_of_construct hconstruct).kept (Model.kept_of_finish hfinish)
  have hcomplete : Complete m emitDocs b := by
    rcases ofModel_cases hclosed emitDocs with ⟨_, b', hb', hcomplete⟩ | ⟨e, _, he⟩
    · cases hb.symm.trans hb'
      exact hcomplete
    · cases hb.symm.trans he
  refine ⟨v, ts, v', _, hturns, hoperations, ?_⟩
  have hmethods := hcomplete.methods
  rw [hoperations, List.forall₂_map_left_iff] at hmethods
  -- each turn is one of the chain, so the end of the chain comes after it
  refine ((List.forall₂_and_left ..).mpr ⟨fun t ht => ht, hmethods⟩).imp ?_
  rintro t method ⟨ht, hmethod⟩
  obtain ⟨given, hgiven, harguments⟩ := hmethod.arguments
  obtain ⟨chosen, implicit, hcounts, hdeclares⟩ := exists_declares t.create_eq
  have hsteps : Steps .anything t.after.model w.model := hlast ▸ hturns.steps_of_mem ht
  refine ⟨chosen, implicit, given, hcounts, ?_, harguments⟩
  rw [← asked_eq_demands hpending hfinish hsteps hbodies hdeclares, List.forall₂_map_left_iff]
  exact hgiven.imp fun q a ha => ⟨ha.name, ha.required⟩

/-! ## A shared body, and one that admits null -/

/-- A body that is required, with one schema. -/
def requiredBody (schema : Document) : Document :=
  .object
    [(.text "required", .bool true),
      (.text "content", .object
        [(.text "application/json", .object [(.text "schema", schema)])])]

/-- A document with one operation, which has a body and parameters, and with shared bodies. -/
def callDocument (shared : List (Document × Document)) (parameters : List Document)
    (body : Document) : Document :=
  .object
    [(.text "components", .object [(.text "requestBodies", .object shared)]),
      (.text "paths", .object
        [(.text "/a", .object
          [(.text "post", .object
            [(.text "parameters", .array parameters), (.text "requestBody", body),
              (.text "responses", .object [])])])])]

/-- The names of the arguments of each method, and whether a call must give them. -/
def argumentsIn (b : Bindings) : List (List (String × Bool)) :=
  b.methods.map fun method => method.arguments.map fun a => (a.name, a.required)

/-- What can be tested of what a document is rendered to. -/
theorem exists_of_arguments (document : Document) (arguments : List (List (String × Bool)))
    (h : (run document {} none).1.toOption.any (fun m => decide
      ((ofModel m true).toOption.map argumentsIn = some arguments)) = true) :
    ∃ m b, (run document {} none).1 = .ok m ∧ ofModel m true = .ok b ∧
      argumentsIn b = arguments := by
  obtain ⟨m, hrun, hrendered⟩ := exists_of_tested document
    (p := fun m => (ofModel m true).toOption.map argumentsIn = some arguments) h
  obtain ⟨b, hb, harguments⟩ := exists_of_toOption_map hrendered
  exact ⟨m, b, hrun, hb, harguments⟩

/-- A shared body that is required and is referred to by another name. -/
def aliasedBodyDocument : Document :=
  callDocument
    [(.text "Base", requiredBody (.object [(.text "type", .text "string")])),
      (.text "Alias", .object [(.text "$ref", .text "#/components/requestBodies/Base")])]
    [textParameter "id" "path" [], textParameter "limit" "query" [],
      textParameter "X-Trace" "header" [(.text "required", .bool true)]]
    (.object [(.text "$ref", .text "#/components/requestBodies/Alias")])

/-- A call must give the path, the body and the header. -/
theorem aliasedBodyDocument_called :
    ∃ m b, (run aliasedBodyDocument {} none).1 = .ok m ∧ ofModel m true = .ok b ∧
      argumentsIn b = [[("path", true), ("body", true), ("x_trace", true), ("query", false)]] ∧
      ∃ v ts v' g, Turns aliasedBodyDocument v ts v' ∧
        m.operations = ts.map (fun t => t.operation.relocate g) ∧
        List.Forall₂ (CallFor aliasedBodyDocument m) ts b.methods := by
  obtain ⟨m, b, hrun, hb, harguments⟩ := exists_of_arguments aliasedBodyDocument
    [[("path", true), ("body", true), ("x_trace", true), ("query", false)]] (by decide +kernel)
  exact ⟨m, b, hrun, hb, harguments, calls_of_run hrun hb⟩

/-- A body that is required and carries a text or null. -/
def nullBody : Document :=
  requiredBody (.object [(.text "type", .text "string"), (.text "nullable", .bool true)])

/-- A call may leave it out all the same. -/
theorem nullBody_omitted :
    nullBody.find? "required" = some (.bool true) ∧
    ∃ m b, (run (callDocument [] [] nullBody) {} none).1 = .ok m ∧ ofModel m true = .ok b ∧
      argumentsIn b = [[("body", false)]] :=
  ⟨rfl, exists_of_arguments _ _ (by decide +kernel)⟩

end Conversion

end TypedApi
