import TypedApi.Bindings.Basic
import TypedApi.Proofs.Conversion.Parallel
import TypedApi.Proofs.Graph.View
/-!
What the options of a conversion decide.

Each option decides one thing only. Without bounded integers the conversion comes
to the same failure or to the same model, but for the bounds. With fetched
documentation it comes to the same but for documentation, unless a fetch fails,
and with documentation that is not emitted the module is the same for models that
differ in nothing else. One thing stands in the way of fetching: what is fetched
takes the place of the description, which is then not looked at. Where a description
beside an address is no text, or the address itself is none, one of the two
conversions goes wrong and the other need not.
-/

set_option autoImplicit false

/-! # Rendering without documentation

A silent model has no documentation left, of its items, of its operations or of
their paths. Documentation decides neither where a reference leads nor what an
item is named, so each part of a module that is written without documentation is
that of the silent model. Models that differ in documentation only therefore have
one and the same module.
-/

namespace TypedApi

/-- An operation without any documentation, of its own or of its path. -/
def Operation.silent (o : Operation) : Operation :=
  { o with docs := none, pathDocs := none }

/-- A model without any documentation. -/
def Model.silent (m : Model) : Model :=
  { m with
    definitions := m.definitions.map Item.undocumented
    operations := m.operations.map Operation.silent }

/-- What is left of a model without the documentation of items and operations is the same where no
documentation is left at all. -/
theorem Model.silent_undocumented (m : Model) : m.undocumented.silent = m.silent := by
  simp only [silent, undocumented, List.map_map, Function.comp_def]
  rfl

namespace Bindings

variable {m : Model}

/-! ## Lookups -/

theorem indexOf_silent (r : Ref) : m.silent.indexOf r = m.indexOf r := by
  have hview := View.indexOf_model ⟨false, true⟩ m r
  rw [View.model_bare] at hview
  cases r <;> exact hview

theorem itemAt_silent (index : Int) :
    m.silent.itemAt index = (m.itemAt index).map Item.undocumented := by
  have hview := View.itemAt_model ⟨false, true⟩ m index
  rw [View.model_bare] at hview
  exact hview

theorem resolve_silent (r : Ref) : m.silent.resolve r = (m.resolve r).map Item.undocumented := by
  rw [Model.resolve, Model.resolve, indexOf_silent]
  cases m.indexOf r with
  | error e => rfl
  | ok index => exact itemAt_silent index

/-! ## Types -/

theorem ofRef_silent (position : Option Nat) (r : Ref) :
    TypeExpr.ofRef m.silent position r = TypeExpr.ofRef m position r := by
  rw [TypeExpr.ofRef, TypeExpr.ofRef, indexOf_silent]
  cases m.indexOf r with
  | error e => rfl
  | ok index =>
    dsimp only [bind, Except.bind]
    rw [itemAt_silent]
    cases m.itemAt index <;> rfl

theorem ofItem_silent (position : Nat) (item : Item) :
    TypeExpr.ofItem m.silent position item = TypeExpr.ofItem m position item := by
  simp only [TypeExpr.ofItem, ofRef_silent]

/-! ## Definitions -/

theorem fieldsFrom_silent (taken : List String) (members : Table Member) :
    fieldsFrom m.silent taken members = fieldsFrom m taken members := by
  induction members generalizing taken with
  | nil => rfl
  | cons p rest ih =>
    obtain ⟨property, member⟩ := p
    simp only [fieldsFrom, ofRef_silent, ih]

theorem alternativeOf_silent (position : Nat) (v : Variant) :
    alternativeOf m.silent position v = alternativeOf m position v := by
  simp only [alternativeOf, ofRef_silent]

theorem bodyOf_silent (emitDocs : Bool) (position : Nat) (item : Item) :
    bodyOf m.silent emitDocs position item = bodyOf m emitDocs position item := by
  have halternatives : alternativeOf m.silent position = alternativeOf m position :=
    funext (alternativeOf_silent position)
  simp only [bodyOf, ofItem_silent, fieldsFrom_silent, halternatives]

/-- What is written of an item without its documentation does not depend on it. -/
theorem bodyOf_undocumented (position : Nat) (item : Item) :
    bodyOf m false position item.undocumented = bodyOf m false position item :=
  rfl

/-- **The definition of an item is that of the silent one.** -/
theorem definitionOf_silent (position : Nat) (item : Item) :
    definitionOf m.silent false position item.undocumented =
      definitionOf m false position item := by
  rw [definitionOf, definitionOf, bodyOf_silent, bodyOf_undocumented]
  rfl

theorem definitionsFrom_silent (position : Nat) (items : List Item) :
    definitionsFrom m.silent false position (items.map Item.undocumented) =
      definitionsFrom m false position items := by
  induction items generalizing position with
  | nil => rfl
  | cons item rest ih =>
    simp only [List.map_cons, definitionsFrom, definitionOf_silent, ih]

/-! ## Methods -/

theorem queryRequired_silent (r : Ref) : queryRequired m.silent r = queryRequired m r := by
  rw [queryRequired, queryRequired, resolve_silent]
  cases m.resolve r <;> rfl

theorem requests_silent (o : Operation) : requests m.silent o.silent = requests m o := by
  have hbody : ∀ r, (m.silent.resolve r >>= fun item =>
      pure (Request.mk "body" r !item.nullable) : Except Failure Request) =
        m.resolve r >>= fun item => pure (Request.mk "body" r !item.nullable) := by
    intro r
    rw [resolve_silent]
    cases m.resolve r <;> rfl
  simp only [requests, Operation.silent, queryRequired_silent, hbody]

theorem argumentsFrom_silent (taken : List String) (rs : List Request) :
    argumentsFrom m.silent taken rs = argumentsFrom m taken rs := by
  induction rs generalizing taken with
  | nil => rfl
  | cons r rest ih => simp only [argumentsFrom, ofRef_silent, ih]

/-- **The method for an operation is that for the silent one.** -/
theorem methodOf_silent (taken : List String) (o : Operation) :
    methodOf m.silent false taken o.silent = methodOf m false taken o := by
  have harguments : argumentsOf m.silent o.silent = argumentsOf m o := by
    simp only [argumentsOf, requests_silent, argumentsFrom_silent]
  have hname : o.silent.functionName = o.functionName := rfl
  have hresponse : o.silent.response = o.response := rfl
  simp only [methodOf, harguments, ofRef_silent, hname, hresponse, Bool.false_eq_true, if_false]

theorem methodsFrom_silent (taken : List String) (operations : List Operation) :
    methodsFrom m.silent false taken (operations.map Operation.silent) =
      methodsFrom m false taken operations := by
  induction operations generalizing taken with
  | nil => rfl
  | cons o rest ih => simp only [List.map_cons, methodsFrom, methodOf_silent, ih]

/-! ## Modules -/

/-- **Without documentation, the module of a model is that of the silent one.** -/
theorem ofModel_silent (m : Model) : ofModel m.silent false = ofModel m false := by
  have hdefinitions : definitionsFrom m.silent false 0 m.silent.definitions =
      definitionsFrom m false 0 m.definitions := definitionsFrom_silent 0 m.definitions
  have hmethods : methodsFrom m.silent false [] m.silent.operations =
      methodsFrom m false [] m.operations := methodsFrom_silent [] m.operations
  simp only [ofModel, hdefinitions, hmethods]
  rfl

/-- Models that differ in documentation only have one module without documentation. -/
theorem ofModel_eq_of_silent {m m' : Model} (h : m.silent = m'.silent) :
    ofModel m false = ofModel m' false := by
  rw [← ofModel_silent m, h, ofModel_silent]

end Bindings

end TypedApi

/-! # One option at a time -/

namespace TypedApi.Conversion

open Build

/-! ## Conversions that start alike -/

/-- Conversions with and without bounded integers start alike. -/
theorem start_alike_bounds (options : ConversionOptions) (docs : Option Docs.Fetcher) :
    Workbench.Alike .bounds (start { options with boundedIntegers := true } docs)
      (start { options with boundedIntegers := false } docs) where
  models := ⟨rfl, plainlyNamed_start _ _⟩
  sources := rfl

/-- Conversions with and without fetched documentation start alike. -/
theorem start_alike_docs (legible : Bool) (options : ConversionOptions)
    (docs docs' : Option Docs.Fetcher) :
    Workbench.Alike (.docs legible) (start { options with fetchExternalDocs := true } docs)
      (start { options with fetchExternalDocs := false } docs') where
  models := ⟨rfl, plainlyNamed_start _ _⟩
  sources := rfl

/-! ## One option at a time -/

/-- Two conversions end alike: with one failure, or with models that stand in a relation. -/
def EndAlike (R : Model → Model → Prop) (x y : Except Failure Model) : Prop :=
  (∃ e, x = .error e ∧ y = .error e) ∨ ∃ m m', x = .ok m ∧ y = .ok m' ∧ R m m'

/-- **Bounded integers decide nothing but bounds.** -/
theorem run_loosened (document : Document) (options : ConversionOptions)
    (docs : Option Docs.Fetcher) :
    EndAlike (fun m m' => m' = m.loosened)
      (run document { options with boundedIntegers := true } docs).1
      (run document { options with boundedIntegers := false } docs).1 := by
  have hdocument : Slack.admits .bounds document := trivial
  have hends := run_parallel hdocument (start_alike_bounds options docs)
  generalize (run document { options with boundedIntegers := true } docs).1 = x at hends ⊢
  generalize (run document { options with boundedIntegers := false } docs).1 = y at hends ⊢
  cases hends with
  | answer m m' halike =>
    have hseen := halike.seen
    rw [Slack.first, Slack.second, View.model_loose, View.model_full] at hseen
    exact .inr ⟨m, m', rfl, rfl, hseen.symm⟩
  | fail e => exact .inl ⟨e, rfl, rfl⟩
  | first e r he => exact he.elim
  | second e r he => exact he.elim

/-- **Fetching decides nothing but documentation**, unless a fetch fails or documentation is no
text. -/
theorem run_undocumented (document : Document) (options : ConversionOptions)
    (fetcher : Docs.Fetcher) :
    (∃ e, (run document { options with fetchExternalDocs := true } (some fetcher)).1 = .error e ∧
      e.IsFetch) ∨
    EndAlike (fun m m' => m.undocumented = m'.undocumented)
      (run document { options with fetchExternalDocs := true } (some fetcher)).1
      (run document { options with fetchExternalDocs := false } (some fetcher)).1 ∨
    document.isLegible = false ∧
      ((run document { options with fetchExternalDocs := true } (some fetcher)).1 =
          .error .malformed ∨
        (run document { options with fetchExternalDocs := false } (some fetcher)).1 =
          .error .malformed) := by
  have hdocument : (Slack.docs document.isLegible).admits document :=
    Slack.admits_iff.mpr fun hlegible => Slack.docs.inj hlegible
  have hends := run_parallel hdocument
    (start_alike_docs document.isLegible options (some fetcher) (some fetcher))
  generalize (run document { options with fetchExternalDocs := true } (some fetcher)).1 = x
    at hends ⊢
  generalize (run document { options with fetchExternalDocs := false } (some fetcher)).1 = y
    at hends ⊢
  cases hends with
  | answer m m' halike =>
    have hseen := halike.seen
    rw [Slack.first, Slack.second, View.model_bare, View.model_bare] at hseen
    exact .inr (.inl (.inr ⟨m, m', rfl, rfl, hseen⟩))
  | fail e => exact .inr (.inl (.inl ⟨e, rfl, rfl⟩))
  | first e r he =>
    rcases he with hfetch | ⟨hlegible, rfl⟩
    · exact .inl ⟨e, rfl, hfetch⟩
    · exact .inr (.inr ⟨hlegible, .inl rfl⟩)
  | second e r he =>
    obtain ⟨hlegible, rfl⟩ := he
    exact .inr (.inr ⟨hlegible, .inr rfl⟩)

/-! ## The options together -/

/-- **The options are orthogonal.** Without bounded integers there is the same failure, or the model
without bounds. With fetching, unless that fails, there is the same failure or a model that differs
in documentation only; where documentation is not legible, one of the conversions may go wrong
besides. And models that differ in documentation only have one module without documentation. -/
theorem options_orthogonal :
    (∀ (document : Document) (options : ConversionOptions) (docs : Option Docs.Fetcher),
      EndAlike (fun m m' => m' = m.loosened)
        (run document { options with boundedIntegers := true } docs).1
        (run document { options with boundedIntegers := false } docs).1) ∧
    (∀ (document : Document) (options : ConversionOptions) (fetcher : Docs.Fetcher),
      (∃ e, (run document { options with fetchExternalDocs := true } (some fetcher)).1 = .error e ∧
        e.IsFetch) ∨
      EndAlike (fun m m' => m.undocumented = m'.undocumented)
        (run document { options with fetchExternalDocs := true } (some fetcher)).1
        (run document { options with fetchExternalDocs := false } (some fetcher)).1 ∨
      document.isLegible = false ∧
        ((run document { options with fetchExternalDocs := true } (some fetcher)).1 =
            .error .malformed ∨
          (run document { options with fetchExternalDocs := false } (some fetcher)).1 =
            .error .malformed)) ∧
    ∀ m m' : Model, m.silent = m'.silent → Bindings.ofModel m false = Bindings.ofModel m' false :=
  ⟨run_loosened, run_undocumented, fun _ _ => Bindings.ofModel_eq_of_silent⟩

/-- A network with one address that answers. -/
def manual : Docs.Fetcher :=
  { network := [("http://docs.test/a", .response { text := "Kept elsewhere." })] }

/-- A document with one bounded integer, whose documentation is kept elsewhere; beside the address
stands a description. -/
def described (description : Document) : Document :=
  .object
    [(.text "components", .object
      [(.text "schemas", .object
        [(.text "Digit", .object
          [(.text "type", .text "integer"), (.text "minimum", .int 0), (.text "maximum", .int 9),
            (.text "description", description),
            (.text "externalDocs", .object [(.text "url", .text "http://docs.test/a")])])])])]

set_option maxRecDepth 4000 in
/-- With the documentation fetched and with the description beside it, the item has different
documentation, and the module without documentation is the same. -/
theorem ofModel_described :
    ∃ m m', (run (described (.text "A digit.")) {} (some manual)).1 = .ok m ∧
      (run (described (.text "A digit.")) { fetchExternalDocs := false } (some manual)).1 = .ok m' ∧
      m.definitions.map (·.docs.text?) = [some "Kept elsewhere."] ∧
      m'.definitions.map (·.docs.text?) = [some "A digit."] ∧
      Bindings.ofModel m false = Bindings.ofModel m' false := by
  have hon : (run (described (.text "A digit.")) {} (some manual)).1.toOption.map
      (fun m => m.definitions.map (·.docs.text?)) = some [some "Kept elsewhere."] := by
    decide +kernel
  have hoff : (run (described (.text "A digit.")) { fetchExternalDocs := false }
      (some manual)).1.toOption.map (fun m => m.definitions.map (·.docs.text?)) =
        some [some "A digit."] := by
    decide +kernel
  have hends := options_orthogonal.2.1 (described (.text "A digit.")) {} manual
  generalize (run (described (.text "A digit.")) {} (some manual)).1 = x at hon hends ⊢
  generalize (run (described (.text "A digit.")) { fetchExternalDocs := false } (some manual)).1 = y
    at hoff hends ⊢
  rcases hends with ⟨e, rfl, _⟩ | (⟨e, rfl, _⟩ | ⟨m, m', rfl, rfl, hm⟩) | ⟨_, rfl | rfl⟩
  · cases hon
  · cases hon
  · have hsilent : m.silent = m'.silent := by
      rw [← m.silent_undocumented, hm, m'.silent_undocumented]
    exact ⟨m, m', rfl, rfl, Option.some.inj hon, Option.some.inj hoff,
      options_orthogonal.2.2 m m' hsilent⟩
  · cases hon
  · cases hoff

set_option maxRecDepth 4000 in
/-- **A description that is no text goes wrong only where it is looked at**: with the documentation
fetched there is a model, and with the description beside it there is none. -/
theorem run_described_number :
    (run (described (.int 5)) {} (some manual)).1.isOk = true ∧
      (run (described (.int 5)) { fetchExternalDocs := false } (some manual)).1 =
        .error .malformed :=
  ⟨by decide +kernel, rfl⟩

end TypedApi.Conversion
