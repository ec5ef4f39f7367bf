import TypedApi.Proofs.Signature.Parameters
import TypedApi.Proofs.Signature.Several
import Mathlib.Algebra.GroupWithZero.Nat
/-!
The implicit header.

An operation with several content types for one of its responses gets an optional
header in front of its parameters, unless it declares one of that name. Whether a
response has several is asked of the document, and it is what the union of the
responses shows.

The item of the header is made in the first turn that needs it, and the model
remembers it from then on. So a turn draws nothing, or the remembered item, or a
new one where none is remembered: over a chain of turns the items made and the
item remembered at first are one together at most.
-/

set_option autoImplicit false

namespace TypedApi

open Build

namespace Operation

variable {document : Document} {w w' : Workbench} {ts : List (Turn document)}

/-! ## The item of the header -/

namespace Turn

/-- How many items a turn adds for the implicit header. -/
def implicitItems (t : Turn document) : Nat :=
  match exec (parametersOf document t.pathItem t.source) t.before with
  | (.ok declared, w) =>
    (exec (implicitHeaders document declared (responsesOf t.source)) w).2.model.size - w.model.size
  | (.error _, _) => 0

/-- Where a turn has its implicit header from: it has none, or its item is the one that the model
remembers, or a new one, which the model remembers after the turn. -/
inductive Draws (t : Turn document) : List Parameter → Prop
  | nothing : t.after.model.acceptHeader = t.before.model.acceptHeader → t.implicitItems = 0 →
    Draws t []
  | remembered (item : Ref) : t.before.model.acceptHeader = some item →
    t.after.model.acceptHeader = some item → t.implicitItems = 0 →
    Draws t [implicitParameter item]
  | made (item : Ref) : t.before.model.acceptHeader = none →
    t.after.model.acceptHeader = some item → t.implicitItems = 1 →
    t.added.model.Shows item (.scalar .acceptHeader) → Draws t [implicitParameter item]

/-- The implicit header among the parts of a turn. -/
theorem draws_of_parts (t : Turn document)
    (p : Parts document t.path t.verb t.pathItem t.source t.before t.after t.operation) :
    t.Draws p.accept := by
  have hcount : t.implicitItems = p.afterAccept.model.size - p.afterDeclared.model.size := by
    rw [implicitItems, p.declared_exec]
    dsimp only
    rw [p.accept_exec]
  have hbefore := p.declared_touches.acceptHeader_eq
  have hafter := p.rest_touches.acceptHeader_eq
  rcases implicitHeaders_cases p.accept_exec with ⟨hnone, hsame, _⟩ | ⟨_, hone, haccept, _⟩
  · rw [hnone]
    rw [hsame] at hafter hcount
    exact .nothing (hafter.trans hbefore) (by rw [hcount, Nat.sub_self])
  · obtain ⟨item, rfl, ⟨hitem, hsame⟩ | ⟨hfree, u, hadd, hmodel⟩⟩ := acceptParameter_cases haccept
    · rw [hone]
      rw [hsame] at hafter hcount
      exact .remembered item (hbefore ▸ hitem) (hafter.trans hitem) (by rw [hcount, Nat.sub_self])
    · rw [hone]
      have hremembered : p.afterAccept.model.acceptHeader = some item := by rw [hmodel]; rfl
      have hsize : p.afterAccept.model.size = p.afterDeclared.model.size + 1 := by
        obtain ⟨_, _, hu⟩ := of_exec_addItem hadd
        rw [hmodel, hu]
        simp [Model.size, Model.withAccept, Model.withItem]
      have hsteps : Steps .anything u.model t.added.model :=
        .trans (.single (.accept u.model item trivial))
          (hmodel ▸ p.steps_accept.tail (.operate _ t.operation fun _ _ => trivial))
      exact .made item (hbefore ▸ hfree) (hafter.trans hremembered) (by omega)
        ((Model.shows_of_addItem hadd).steps hsteps)

theorem exists_draws (t : Turn document) : ∃ accept, t.Draws accept := by
  obtain ⟨parts⟩ := exists_parts t.create_eq
  exact ⟨parts.accept, t.draws_of_parts parts⟩

/-- What is remembered before a turn is remembered after it. -/
theorem Draws.acceptHeader_eq {t : Turn document} {accept : List Parameter} {r : Ref}
    (h : t.Draws accept) (hr : t.before.model.acceptHeader = some r) :
    t.after.model.acceptHeader = some r := by
  cases h with
  | nothing hsame _ => exact hsame.trans hr
  | remembered item hitem hafter _ => exact hafter.trans (hitem.symm.trans hr)
  | made item hnone _ _ _ =>
    rw [hnone] at hr
    cases hr

/-- The items that a turn makes and those remembered before it are no more than those remembered
after it. -/
theorem Draws.implicitItems_le {t : Turn document} {accept : List Parameter} (h : t.Draws accept) :
    t.implicitItems + t.before.model.acceptHeader.toList.length ≤
      t.after.model.acceptHeader.toList.length := by
  cases h with
  | nothing hsame hcount => rw [hsame, hcount, Nat.zero_add]
  | remembered item hbefore hafter hcount => rw [hbefore, hafter, hcount, Nat.zero_add]
  | made item hbefore hafter hcount _ =>
    rw [hbefore, hafter, hcount]
    exact Nat.le_refl _

end Turn

/-- **At most one item is made in a chain of turns.** -/
theorem Turns.sum_implicitItems_le (h : Turns document w ts w') :
    (ts.map Turn.implicitItems).sum + w.model.acceptHeader.toList.length ≤ 1 := by
  induction h with
  | done w => cases w.model.acceptHeader <;> simp
  | next t _ ih =>
    obtain ⟨_, hdraws⟩ := t.exists_draws
    have hstep := hdraws.implicitItems_le
    have hadded : t.added.model.acceptHeader = t.after.model.acceptHeader := rfl
    rw [hadded] at ih
    rw [List.map_cons, List.sum_cons]
    omega

/-- **All turns of a chain that have an implicit header have the same item for it**, that which is
remembered at first, if there is one. -/
theorem Turns.exists_item (h : Turns document w ts w')
    (hw : ∀ r, w.model.acceptHeader = some r → w.model.Shows r (.scalar .acceptHeader)) :
    ∃ item, (∀ r, w.model.acceptHeader = some r → r = item) ∧
      ∀ t ∈ ts, ∀ accept, t.Draws accept → accept = [] ∨
        accept = [implicitParameter item] ∧ w'.model.Shows item (.scalar .acceptHeader) := by
  induction h with
  | done w =>
    cases haccept : w.model.acceptHeader with
    | none => exact ⟨.back 0, by simp, by simp⟩
    | some r => exact ⟨r, by simp, by simp⟩
  | @next t ts w' hrest ih =>
    obtain ⟨_, hdraws⟩ := t.exists_draws
    have hshows : ∀ r, t.added.model.acceptHeader = some r →
        t.added.model.Shows r (.scalar .acceptHeader) := by
      intro r hr
      cases hdraws with
      | nothing hsame _ => exact (hw r (hsame.symm.trans hr)).steps t.steps
      | remembered item hitem hafter _ => exact (hw r (hitem.trans (hafter.symm.trans hr))).steps t.steps
      | made item _ hafter _ hshows =>
        obtain rfl := Option.some.inj (hafter.symm.trans hr)
        exact hshows
    obtain ⟨item, hitem, hall⟩ := ih hshows
    refine ⟨item, fun r hr => hitem r (hdraws.acceptHeader_eq hr), fun t' ht' accept haccept => ?_⟩
    rcases List.mem_cons.mp ht' with rfl | ht'
    · cases haccept with
      | nothing _ _ => exact .inl rfl
      | remembered r _ hafter _ | made r _ hafter _ _ =>
        obtain rfl := hitem r hafter
        exact .inr ⟨rfl, (hshows r hafter).steps hrest.steps⟩
    · exact hall t' ht' accept haccept

/-! ## Whether there is a header -/

/-- How it is decided in a turn whether there is an implicit header: if no declared header has its
name in any letter case, and some status contributes two or more variants to the union of the
responses. It stands in front of the declared parameters then, and in front of the headers. -/
structure Turn.Decides (t : Turn document) (accept declared : List Parameter)
    (pieces : List (List Variant)) : Prop where
  declared_eq : (exec (parametersOf document t.pathItem t.source) t.before).1 = .ok declared
  contributed : ∃ specName m fields,
    m.responseVariants = t.before.model.responseVariants ∧
    ((responsesOf t.source).orElse (.object [])).fields? = some fields ∧
    List.Forall₂ (fun entry piece => ∃ name, statusName entry.1 = .ok name ∧
      Contributes document m (Name.upperCamel specName) entry.1 name entry.2 piece)
      (orderedStatuses fields) pieces
  shows : t.after.model.Shows t.operation.response (.oneOf none pieces.flatten)
  accept_iff : accept ≠ [] ↔
    (∀ p ∈ parametersAt .header declared, Text.lowerAscii p.specName ≠ "accept") ∧
      ∃ piece ∈ pieces, 2 ≤ piece.length
  parameters_eq : t.operation.parameters = accept ++ declared
  headers_eq :
    t.operation.headers = (accept ++ parametersAt .header declared).map fun p => (p.specName, p)

/-- **A turn is decided by the union of its responses**, where what the model keeps for shared
responses agrees with the document. -/
theorem Turn.decides (t : Turn document) (hm : Conversion.AllAgree document t.before.model) :
    ∃ accept declared pieces, t.Decides accept declared pieces ∧ t.Draws accept := by
  obtain ⟨parts⟩ := exists_parts t.create_eq
  obtain ⟨specName, m, hshared, hunion⟩ := Conversion.unionOf_of_turn t
  obtain ⟨fields, pieces, hfields, hpieces, hshows, _⟩ := hunion.exists_pieces
  have hagree : Conversion.AllAgree document m := by
    intro path kept hget
    exact hm path kept (hshared ▸ hget)
  have hdistinct := distinct_of_parametersOf parts.declared_exec
  refine ⟨parts.accept, parts.declared, pieces, {
    declared_eq := by rw [parts.declared_exec]
    contributed := ⟨specName, m, fields, hshared, hfields, hpieces⟩
    shows := hshows
    accept_iff := ?_
    parameters_eq := parts.parameters_eq
    headers_eq := by rw [parts.headers_eq, headerTable_eq hdistinct, List.map_append] },
    t.draws_of_parts parts⟩
  have hfree : declaresAccept (headerTable parts.declared) = false ↔
      ∀ p ∈ parametersAt .header parts.declared, Text.lowerAscii p.specName ≠ "accept" := by
    rw [← Bool.not_eq_true, declaresAccept_iff hdistinct]
    simp only [not_exists, not_and, ne_eq]
  rw [← hfree]
  rcases implicitHeaders_cases parts.accept_exec with
    ⟨hnone, _, hdeclares | hseveral⟩ | ⟨p, hone, _, hdeclares, hseveral⟩
  · simp [hnone, hdeclares]
  · have hone := Conversion.anySeveral_iff hagree hfields hpieces (hseveral t.before)
    simpa [hnone] using fun _ => not_exists.mp (hone.not.mp (by simp))
  · have hsome := Conversion.anySeveral_iff hagree hfields hpieces (hseveral t.before)
    simpa [hone, hdeclares] using hsome.mp rfl

end Operation

namespace Conversion

open Operation

variable {document : Document}

/-- The items of an operation's parameters are among the references of the model. -/
theorem item_mem_refs {m : Model} {o : Operation} {p : Parameter} (ho : o ∈ m.operations)
    (hp : p ∈ o.parameters) : p.item ∈ m.refs := by
  refine List.mem_append_left _ (List.mem_append_right _ (List.mem_flatMap.mpr ⟨o, ho, ?_⟩))
  simp only [Operation.refs, List.mem_append]
  exact .inl (.inl (.inr (List.mem_map_of_mem hp)))

/-- The implicit header in what a conversion returns. Every operation was decided in its turn, those
that have the header have the same item for it, a scalar of the finished model, and no more than one
was made. Finishing puts each operation's references through one function and leaves it alone
otherwise. -/
def SharesAccept (document : Document) (m : Model) : Prop :=
  ∃ v ts v' g item, Turns document v ts v' ∧ v'.model.finish = (m, none) ∧
    m.operations = ts.map (fun t => t.operation.relocate g) ∧
    (∀ t ∈ ts, ∃ accept declared pieces, t.Decides accept declared pieces ∧
      (accept = [] ∨
        accept = [implicitParameter item] ∧ m.Shows (g item) (.scalar .acceptHeader))) ∧
    (ts.map Turn.implicitItems).sum ≤ 1

/-- **The implicit header of a conversion.** An operation has it exactly if no declared header has
its name and some status contributes two or more variants. It is optional and stands in front, and
all operations have the same item for it, of which no more than one is made. No two names of shared
responses may be spelled alike, nor hold a character that a path would read otherwise. -/
theorem accept_decided {options : ConversionOptions} {docs : Option Docs.Fetcher} {m : Model}
    (hnames : ∀ entries, sectionOf? document "responses" = some entries → LegibleNames entries)
    (h : (run document options docs).1 = .ok m) : SharesAccept document m := by
  obtain ⟨w, hconstruct, hfinish⟩ := run_eq_ok_iff.mp h
  obtain ⟨entries, u, u', v, v', ts, hentries, hempty, hloop, hshared, hnone, hfree, hturns, hlast⟩ :=
    exists_turns_of_construct hconstruct
  have hpending : w.model.Pending := by
    have hpending := pending_construct document options docs
    rwa [hconstruct] at hpending
  rw [hlast] at hpending hfinish
  obtain ⟨g, hindex, hsettled⟩ := (Model.finishes_of_finish hpending hfinish).relocated
  have hoperations : m.operations = ts.map fun t => t.operation.relocate g := by
    have hrelocated : m.operations = v'.model.operations.map (Operation.relocate g) :=
      congrArg Model.operations hsettled
    rw [hrelocated, hturns.operations_eq, hnone, List.nil_append, List.map_map]
    rfl
  have hagree := allAgree_of_responses (hnames entries hentries) hentries hempty hloop
  obtain ⟨item, _, hitem⟩ := hturns.exists_item (by simp [hfree])
  refine ⟨v, ts, v', g, item, hturns, hfinish, hoperations, fun t ht => ?_, ?_⟩
  · have hbefore : AllAgree document t.before.model := by
      intro path kept hget
      exact hagree path kept (by rwa [← hshared, ← hturns.responseVariants_eq.2 t ht])
    obtain ⟨accept, declared, pieces, hdecides, hdraws⟩ := t.decides hbefore
    refine ⟨accept, declared, pieces, hdecides, ?_⟩
    rcases hitem t ht accept hdraws with hnothing | ⟨hone, hshows⟩
    · exact .inl hnothing
    -- the item is one of an operation of the model, so its reference is settled with the others
    · have href : item ∈ v'.model.refs := by
        have hmem : implicitParameter item ∈ t.operation.parameters := by
          rw [hdecides.parameters_eq, hone]
          exact List.mem_cons_self
        refine item_mem_refs ?_ hmem
        rw [hturns.operations_eq]
        exact List.mem_append_right _ (List.mem_map_of_mem ht)
      obtain ⟨index, hfound, heq⟩ := hindex item href
      exact .inr ⟨hone, heq ▸ hshows.finish hfinish hfound⟩
  · have hsum := hturns.sum_implicitItems_le
    omega

/-! ## Operations with and without the header -/

/-- The responses of an operation that has nothing to offer a choice of. -/
def emptyResponses : Document :=
  .object [(.text "204", .object [(.text "description", .text "nothing")])]

/-- The responses of an operation that refers to the shared response. -/
def baseResponses : Document :=
  .object [(.text "404", .object [(.text "$ref", .text "#/components/responses/Base")])]

/-- A document with four operations: two have responses with several content types, one of them by
an alias, one has such a response and declares the header, and one has no content at all. -/
def negotiatedDocument : Document :=
  .object [
    (.text "components", .object [(.text "responses", sharedResponses)]),
    (.text "paths", .object [
      (.text "/a", .object [
        (.text "get", .object [(.text "responses", mixedResponses)]),
        (.text "post", .object [
          (.text "parameters", .array [textParameter "ACCEPT" "header" []]),
          (.text "responses", baseResponses)])]),
      (.text "/b", .object [
        (.text "get", .object [(.text "responses", baseResponses)]),
        (.text "delete", .object [(.text "responses", emptyResponses)])])])]

/-- The names and the items of the headers of each operation. -/
def headersOf (m : Model) : List (List (String × Ref)) :=
  m.operations.map fun o => o.headers.map fun p => (p.1, p.2.item)

theorem legible_negotiatedDocument {entries : List (Document × Document)}
    (h : sectionOf? negotiatedDocument "responses" = some entries) : LegibleNames entries := by
  have hsection : sectionOf? negotiatedDocument "responses" = sharedResponses.fields? := rfl
  rw [hsection] at h
  cases h
  exact ⟨by decide +kernel, by decide +kernel⟩

/-- Two operations have the header, with one item; the declared header has an item of its own. -/
theorem negotiatedDocument_decided :
    (∀ entries, sectionOf? negotiatedDocument "responses" = some entries → LegibleNames entries) ∧
    ∃ m, (run negotiatedDocument {} none).1 = .ok m ∧
      headersOf m = [[("Accept", .resolved 2)], [("ACCEPT", .resolved 5)],
        [("Accept", .resolved 2)], []] ∧
      SharesAccept negotiatedDocument m := by
  refine ⟨fun _ => legible_negotiatedDocument, ?_⟩
  have hheaders : (run negotiatedDocument {} none).1.toOption.map headersOf =
      some [[("Accept", .resolved 2)], [("ACCEPT", .resolved 5)], [("Accept", .resolved 2)], []] := by
    decide +kernel
  obtain ⟨m, hrun, hsame⟩ := exists_of_toOption_map hheaders
  exact ⟨m, hrun, hsame, accept_decided (fun _ => legible_negotiatedDocument) hrun⟩

/-! ## Two names that are spelled alike -/

/-- Shared responses with a number and its numeral for names. The numeral has one content type, and
the number is another name of a response that has two. -/
def spelledAlikeResponses : Document :=
  .object [
    (.text "Base", .object [(.text "content", .object
      [(.text "text/plain", textMedia), (.text "text/html", textMedia)])]),
    (.text "404", .object [(.text "content", .object [(.text "text/plain", textMedia)])]),
    (.int 404, .object [(.text "$ref", .text "#/components/responses/Base")])]

/-- A document with one operation that has one response, a reference to the name that is there
twice. -/
def spelledAlikeDocument : Document :=
  .object [
    (.text "components", .object [(.text "responses", spelledAlikeResponses)]),
    (.text "paths", .object [(.text "/a", .object [(.text "get", .object
      [(.text "responses", .object
        [(.text "default", .object [(.text "$ref", .text "#/components/responses/404")])])])])])]

/-- The statuses of the variants of the union that a reference leads to. -/
def statusesOf (m : Model) (r : Ref) : List (Option String) :=
  match m.resolve r with
  | .ok item => item.shape.variants.map Variant.statusCode
  | .error _ => []

/-- The names are plain, no header is declared and the only response contributes two variants, but
there is no implicit header: the variants are those of the number, and the content types are counted
at the numeral. -/
theorem spelledAlike_unoffered :
    ∃ m, (run spelledAlikeDocument {} none).1 = .ok m ∧
      (∀ entries, sectionOf? spelledAlikeDocument "responses" = some entries →
        ∀ e ∈ entries, Document.IsPlain e.1.display) ∧
      m.operations.map (fun o => (o.parameters, statusesOf m o.response)) =
        [([], [some "default", some "default"])] ∧
      headersOf m = [[]] := by
  have hvalues : (run spelledAlikeDocument {} none).1.toOption.map (fun m =>
      (m.operations.map (fun o => (o.parameters, statusesOf m o.response)), headersOf m)) =
      some ([([], [some "default", some "default"])], [[]]) := by
    decide +kernel
  obtain ⟨m, hrun, hsame⟩ := exists_of_toOption_map hvalues
  obtain ⟨hoperations, hheaders⟩ := Prod.mk.inj hsame
  refine ⟨m, hrun, fun entries hentries => ?_, hoperations, hheaders⟩
  have hsection : sectionOf? spelledAlikeDocument "responses" = spelledAlikeResponses.fields? := rfl
  rw [hsection] at hentries
  cases hentries
  decide +kernel

end Conversion

end TypedApi
