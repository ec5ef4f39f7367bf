import TypedApi.Proofs.Conversion.Appending
import TypedApi.Proofs.Operation.Homed
/-!
Where aliases end.

Components may refer to each other in any order, so a component may be an alias of one
that is lowered later, and nothing looks at where such aliases lead. They lead to an
item that is no alias, except where the document has no other meaning for them: a
component that stands for itself through references becomes a ring of aliases. Null
that a schema adds makes no difference to this, and neither do parameters, bodies and
headers between the schemas of a ring.

Recursion through members, elements and alternatives is another matter. An item that
holds a reference to itself in one of these is no alias.
-/

set_option autoImplicit false

/-! # Items are stored before what refers to them

A reference of an item is either the index of another item, which is then an
earlier one, or the path of an item that may come later. So a construction
never goes through a model in which an index leads forward, and in a finished
model a reference that leads to its own item or to a later one was written as a
path. Indices alone only ever lead down, and cannot close a cycle: every cycle
of references goes through a path.
-/

namespace TypedApi

open Build

/-! ## Slots -/

/-- The reference at a position among those of the item at an index. -/
def Model.Slot (m : Model) (i k : Nat) (r : Ref) : Prop :=
  ∃ item, m.definitions[i]? = some item ∧ item.shape.refs[k]? = some r

/-- A model in which every index that an item holds is that of an earlier item. -/
def Model.Ordered (m : Model) : Prop :=
  ∀ i k j, m.Slot i k (.back j) → 0 ≤ j ∧ j < i

/-- A slot that holds a path. -/
def Model.Forward (m : Model) (slot : Nat × Nat) : Prop :=
  ∃ path, m.Slot slot.1 slot.2 (.forward path)

/-- A slot that leads to the item of the next one. -/
def Model.LeadsTo (m : Model) (slot next : Nat × Nat) : Prop :=
  m.Slot slot.1 slot.2 (.resolved next.1)

variable {m m' : Model}

/-- A model that keeps the promises of a construction is ordered. -/
theorem Standard.Sound.ordered (h : Standard.pending.Sound m) : m.Ordered := by
  rintro i k j ⟨item, hitem, hr⟩
  exact ((h.definitions i item hitem).refs _ (List.mem_of_getElem? hr)).2 j rfl

/-- A slot of a model under construction holds an index or a path. -/
theorem Standard.Sound.slot_cases (h : Standard.pending.Sound m) {i k : Nat} {r : Ref}
    (hr : m.Slot i k r) : (∃ j, r = .back j) ∨ ∃ path, r = .forward path := by
  obtain ⟨item, hitem, hslot⟩ := hr
  have hpromise := (h.definitions i item hitem).refs r (List.mem_of_getElem? hslot)
  cases r with
  | back j => exact .inl ⟨j, rfl⟩
  | forward path => exact .inr ⟨path, rfl⟩
  | resolved j => cases hpromise.1

/-- What a slot holds is kept by the steps of a build. -/
theorem Steps.slot {S : Standard} (h : Steps S m m') {i k : Nat} {r : Ref} (hr : m.Slot i k r) :
    m'.Slot i k r := by
  obtain ⟨item, hitem, hslot⟩ := hr
  obtain ⟨item', hitem', _, hshape⟩ := h.kept.definitions i item hitem
  refine ⟨item', hitem', ?_⟩
  rcases hshape with ⟨_, heq⟩ | ⟨hopen, hfinal, _⟩
  · rwa [heq]
  · rw [h.finalized_eq, hopen] at hfinal
    cases hfinal

/-- A model from which steps lead to an ordered one is ordered. -/
theorem Model.Ordered.of_steps {S : Standard} (h : m'.Ordered) (hsteps : Steps S m m') :
    m.Ordered :=
  fun i k j hslot => h i k j (hsteps.slot hslot)

/-! ## Slots of a finished model -/

/-- A slot of a finished model holds the index that its reference led to before. -/
theorem Model.slot_of_finish (h : m.finish = (m', none)) (hopen : m.finalized = false)
    {i k : Nat} {r : Ref} (hr : m'.Slot i k r) :
    ∃ s index, m.Slot i k s ∧ m.indexOf s = .ok index ∧ r = .resolved index := by
  rcases Model.finish_cases hopen with ⟨e, hfinish, _⟩ | ⟨hfinish, hrefs⟩
  · rw [hfinish] at h
    cases h
  · rw [hfinish] at h
    have hsame := congrArg Model.definitions (Model.unnamed_nameAll m.settled)
    rw [h] at hsame
    obtain ⟨item', hitem', hslot'⟩ := hr
    have hdefinitions : m'.definitions.map Item.unnamed =
        (m.definitions.map (Item.relocate (settle m.resolved))).map Item.unnamed := hsame
    rcases Model.items_at hdefinitions i with ⟨_, hnone⟩ | ⟨item, new, hitem, hnew, hshape⟩
    · rw [hitem'] at hnone
      cases hnone
    · cases hitem'.symm.trans hnew
      -- the references of the two items correspond, position by position
      have hmap : item'.shape.refs = item.shape.refs.map (settle m.resolved) := by
        rw [← Shape.refs_unnamed, hshape, Shape.refs_unnamed, Shape.refs_relocate]
      rw [hmap, List.getElem?_map] at hslot'
      obtain ⟨s, hs, rfl⟩ := Option.map_eq_some_iff.mp hslot'
      have hmem : s ∈ m.refs :=
        Model.refs_shape_subset (List.mem_of_getElem? hitem) (List.mem_of_getElem? hs)
      obtain ⟨index, hindex, heq⟩ := Model.resolved_eq_ok_iff.mp (hrefs s hmem)
      exact ⟨s, index, ⟨item, hitem, hs⟩, hindex, heq⟩

/-- A slot of a finished model held a path that is registered for its index, or leads down. -/
theorem Standard.Sound.slot_of_finish (hm : Standard.pending.Sound m)
    (hopen : m.finalized = false) (h : m.finish = (m', none)) {i k : Nat} {j : Int}
    (hr : m'.Slot i k (.resolved j)) :
    (∃ path, m.Slot i k (.forward path) ∧ m.namedReferences.get? path = some j) ∨ j < i := by
  obtain ⟨s, index, hs, hindex, heq⟩ := Model.slot_of_finish h hopen hr
  cases heq
  rcases hm.slot_cases hs with ⟨b, rfl⟩ | ⟨path, rfl⟩
  · cases Model.eq_of_indexOf_back hindex
    exact .inr (hm.ordered i k _ hs).2
  · exact .inl ⟨path, hs, Model.get?_of_indexOf_forward hindex⟩

/-- Along slots none of which held a path, indices go down. -/
theorem lt_of_chain {later : Nat × Nat → Prop} {leads : Nat × Nat → Nat × Nat → Prop}
    (hdown : ∀ a b, leads a b → ¬later a → b.1 < a.1) {first last : Nat × Nat}
    {rest : List (Nat × Nat)} (hchain : (first :: rest ++ [last]).IsChain leads)
    (hnone : ∀ slot ∈ first :: rest, ¬later slot) : last.1 < first.1 := by
  induction rest generalizing first with
  | nil =>
    simp only [List.cons_append, List.nil_append, List.isChain_cons_cons] at hchain
    exact hdown first last hchain.1 (hnone first List.mem_cons_self)
  | cons next rest ih =>
    rw [List.cons_append, List.cons_append, List.isChain_cons_cons] at hchain
    have hfirst := hdown first next hchain.1 (hnone first List.mem_cons_self)
    have hrest := ih hchain.2 fun slot hslot => hnone slot (List.mem_cons_of_mem _ hslot)
    omega

namespace Conversion

/-! ## Conversions -/

/-- **Every item is stored before what refers to it by its index.** A construction takes one step
after the other, whether it answers or fails in the end, and every model from which steps lead to the
one that it leaves is ordered, so every model on its way is. In a finished model a slot that leads to
its own item or a later one held a path that is registered for that item, and every cycle of slots
goes through one that held a path. -/
theorem stored_before_referred (document : Document) (options : ConversionOptions)
    (docs : Option Docs.Fetcher) :
    let constructed := (exec (construct document) (start options docs)).2.model
    Steps .anything (start options docs).model constructed ∧
    (∀ m, Steps .anything m constructed → m.Ordered) ∧
    ∀ m', (run document options docs).1 = .ok m' →
      (∀ i k j, m'.Slot i k (.resolved j) → i ≤ j →
        ∃ path, constructed.Slot i k (.forward path) ∧
          constructed.namedReferences.get? path = some j) ∧
      ∀ first rest, (first :: rest ++ [first]).IsChain m'.LeadsTo →
        ∃ slot ∈ first :: rest, constructed.Forward slot := by
  intro constructed
  have hempty : Standard.pending.Sound (start options docs).model := Standard.sound_empty _
  have hsteps := ((construct_along (S := .pending) document).runs hempty _ rfl).1
  have hsound : Standard.pending.Sound constructed := hempty.steps hsteps
  refine ⟨?_, fun m hm => hsound.ordered.of_steps hm, fun m' hrun => ?_⟩
  -- the steps keep the promises of a construction, but that is not asked of them here
  · exact ((construct_along document).runs (Call.sound_anything _) _ rfl).1
  · obtain ⟨w, hconstruct, hfinish⟩ := run_eq_ok_iff.mp hrun
    have hmodel : constructed = w.model := congrArg (fun p => p.2.model) hconstruct
    rw [← hmodel] at hfinish
    have hopen : constructed.finalized = false := hsteps.finalized_eq
    refine ⟨fun i k j hslot hle => ?_, fun first rest hchain => ?_⟩
    · rcases hsound.slot_of_finish hopen hfinish hslot with hpath | hlt
      · exact hpath
      · omega
    · by_contra hnone
      have hlater : ∀ slot ∈ first :: rest, ¬constructed.Forward slot :=
        fun slot hslot hforward => hnone ⟨slot, hslot, hforward⟩
      -- without a path each slot leads to an earlier item, and none leads back to the first
      have hdown : ∀ a b, m'.LeadsTo a b → ¬constructed.Forward a → b.1 < a.1 := by
        intro a b hleads hnot
        rcases hsound.slot_of_finish hopen hfinish hleads with ⟨path, hpath, _⟩ | hlt
        · exact (hnot ⟨path, hpath⟩).elim
        · omega
      exact Nat.lt_irrefl _ (lt_of_chain hdown hchain hlater)

set_option maxRecDepth 4000 in
/-- The recursive schema of a tree refers to itself, through a path. -/
theorem treeDocument_cycle :
    ∃ m', (run treeDocument {} none).1 = .ok m' ∧ m'.LeadsTo (2, 0) (2, 0) ∧
      (exec (construct treeDocument) (start {} none)).2.model.Forward (2, 0) := by
  obtain ⟨m', hrun, hslot⟩ : ∃ m', (run treeDocument {} none).1 = .ok m' ∧
      m'.LeadsTo (2, 0) (2, 0) := ⟨_, rfl, _, rfl, rfl⟩
  have hcycle := ((stored_before_referred treeDocument {} none).2.2 m' hrun).2 (2, 0) []
    (List.isChain_pair.mpr hslot)
  obtain ⟨slot, hmem, hforward⟩ := hcycle
  cases List.mem_singleton.mp hmem
  exact ⟨m', hrun, hslot, hforward⟩

end Conversion

end TypedApi

/-! # Rings of aliases -/

namespace TypedApi

open Build
open Relation (ReflTransGen TransGen)

namespace Conversion

/-! ## What a component stands for -/

/-- The components whose entries get a path each. -/
inductive ComponentKind where
  | schema
  | parameter
  | body
  | header

namespace ComponentKind

/-- The section of the components. -/
def key : ComponentKind → String
  | .schema => "schemas"
  | .parameter => "parameters"
  | .body => "requestBodies"
  | .header => "headers"

/-- What the paths of the entries begin with. -/
def path : ComponentKind → String
  | .schema => "#/components/schemas/"
  | .parameter => "#/components/parameters/"
  | .body => "#/components/requestBodies/"
  | .header => Operation.headersPrefix

/-- The schemas of the value of an entry; a schema has no value besides itself. -/
def schemas : ComponentKind → Document → List Document
  | .schema, _ => []
  | .body, d => Operation.bodySchemas d
  | .parameter, d | .header, d => [Operation.valueSchema d]

end ComponentKind

/-- The component with a path stands for the one with another: it is a reference to that, or it is
none and the schemas of its value are references to that. What stands anywhere else in the document
is a component as well, if its path has the form of one of a header. -/
inductive StandsFor (document : Document) : String → String → Prop
  | entry (kind : ComponentKind) (entries : List (Document × Document)) (key d : Document)
    (next : String) :
    sectionOf? document kind.key = some entries → (key, d) ∈ entries →
    d.Designates (kind.schemas d) next → StandsFor document (kind.path ++ key.display) next
  | header (path name : String) (target : Document) (next : String) :
    Operation.headerName? path = some name → document.resolve path = .ok target →
    target.Designates [Operation.valueSchema target] next → StandsFor document path next

/-! ## Shared components -/

section Components

variable {N : String → String → Prop} {m : Model} {document key d : Document}

theorem publish_houses {r : Ref} : Houses N m (publish r) fun _ _ => True :=
  .modifyItem Operation.remark_pubTypedef Operation.keepsMark_pubTypedef

theorem insertSchema_houses
    (hstands : ∀ next, d.Designates [] next → N ("#/components/schemas/" ++ key.display) next) :
    Houses N m (insertSchema (key, d)) fun _ _ => True := by
  refine .bind (Q := fun _ _ => True) ?_ fun _ _ _ _ => publish_houses
  refine .skip_answer (.require _) fun specName hname => ?_
  obtain ⟨_, _, hname⟩ := hname
  cases Schema.eq_text_of_text? (of_exec_require_ok hname)
  refine .ite (fun _ => ?_) fun _ => .skip_answer (.require _) fun target htarget => ?_
  · exact (Operation.addInline_houses _ _ _ _ _ (fun _ h => (Option.some.inj h).symm)).weaken
      fun _ _ _ _ _ => trivial
  obtain ⟨_, _, htarget⟩ := htarget
  have hreference := Schema.eq_text_of_text? (of_exec_require_ok htarget)
  have hadd : ∀ (m' : Model) (item : Item),
      m'.Suits N ("#/components/schemas/" ++ specName) item.shape →
      Houses N m' (addItem item (some ("#/components/schemas/" ++ specName))) fun _ _ => True :=
    fun m' item hitem => (Houses.addItem_serves (fun _ h => (Option.some.inj h).symm) hitem).weaken
      fun _ _ _ _ _ => trivial
  refine .ite (fun _ => .skip (.note _) fun _ => hadd _ _ (Model.suits_of_proper rfl))
    fun hinternal => ?_
  refine .bind (Schema.convert_houses hreference (by simpa using hinternal)) fun t m' _ ht => ?_
  refine .skip (.textOrNull _) fun docs => hadd _ _ ?_
  exact Model.suits_of_becomes (hstands target (.inl hreference)) rfl ht

theorem insertParameter_houses
    (hstands : ∀ next, d.Designates [Operation.valueSchema d] next →
      N ("#/components/parameters/" ++ key.display) next) :
    Houses N m (insertParameter (key, d)) fun _ _ => True :=
  .bind (Operation.insertComponentParameter_houses hstands) fun _ _ _ _ => publish_houses

theorem insertBody_houses
    (hstands : ∀ next, d.Designates (Operation.bodySchemas d) next →
      N ("#/components/requestBodies/" ++ key.display) next) :
    Houses N m (insertBody (key, d)) fun _ _ => True := by
  refine .skip (.require _) fun _ => ?_
  cases hreference : d.find? "$ref" with
  | some reference =>
    refine .bind (.namedBy fun next hnext => hstands next (.inl ?_)) fun r m' _ hr => ?_
    · rw [Schema.referenceOf, hreference, hnext]
      rfl
    · exact (Houses.registerPath hr).weaken fun _ _ _ _ _ => trivial
  | none =>
    refine .skip (.require _) fun specName => .bind (Operation.createBody_houses specName ?_)
      fun r _ _ _ => .bind publish_houses fun _ _ _ _ =>
        .modifyItem (Operation.remark_orDocs _) (Operation.keepsMark_orDocs _)
    refine fun next hne hall => hstands next (.inr ⟨?_, hne, hall⟩)
    rw [Schema.referenceOf, hreference]
    rfl

theorem insertHeader_houses (hN : Operation.HeadersStand N document)
    (hstands : ∀ next, d.Designates [Operation.valueSchema d] next →
      N (Operation.headersPrefix ++ key.display) next) :
    Houses N m (insertHeader document (key, d)) fun _ _ => True :=
  .bind (Operation.insertComponentHeader_houses hN hstands) fun _ _ _ _ => .pure trivial

/-- A shared response registers no path but those of the shared headers that it meets. -/
theorem insertResponse_homes (hN : Operation.HeadersStand N document)
    (entry : Document × Document) : Keeps (Model.Homes N) (insertResponse document entry) := by
  obtain ⟨key, response⟩ := entry
  have hshare : ∀ path variants, Keeps (Model.Homes N)
      (modifyModel fun m => m.withShared path variants) :=
    fun _ _ => ⟨fun _ h => h⟩
  refine .skip (.require _) fun _ => ?_
  split
  · exact .skip (Operation.still_cachedVariantsBy _) fun _ => hshare ..
  · exact .skip (.require _) fun specName =>
      (Operation.allows_homes.createVariants (Operation.convertHeader_homes hN) ..).bind
        fun _ => hshare ..

end Components

theorem headersStand (document : Document) : Operation.HeadersStand (StandsFor document) document :=
  fun path name target hname hresolve next hnext =>
    .header path name target next hname hresolve hnext

/-- **All paths are at home in what a document is lowered to.** -/
theorem homed_of_construct {document : Document} {options : ConversionOptions}
    {docs : Option Docs.Fetcher} {w : Workbench}
    (hrun : exec (construct document) (start options docs) = (.ok (), w)) :
    w.model.Homed (StandsFor document) := by
  have hN := headersStand document
  obtain ⟨schemas, parameters, bodies, responses, headers, u₁, v₁, u₂, u₃, u₄, u₅, u₆,
    ⟨hschemas, hloop₁, hsame⟩, ⟨hparameters, hloop₂⟩, ⟨hbodies, hloop₃⟩, ⟨_, hloop₄⟩,
    ⟨hheaders, hloop₅⟩, hloop₆, hlast⟩ := exists_all_stages hrun
  have hempty : (start options docs).model.Homed (StandsFor document) :=
    fun _ _ hpath => by cases hpath
  have h₁ : u₁.model.Homed (StandsFor document) :=
    (Keeps.forM fun entry hentry => Operation.keeps_of_houses fun _ => insertSchema_houses
      fun next hnext => .entry .schema _ _ _ next hschemas hentry hnext).of_exec hloop₁ hempty
  rw [← hsame] at h₁
  have h₂ : u₂.model.Homed (StandsFor document) :=
    (Keeps.forM fun entry hentry => Operation.keeps_of_houses fun _ => insertParameter_houses
      fun next hnext => .entry .parameter _ _ _ next hparameters hentry hnext).of_exec hloop₂ h₁
  have h₃ : u₃.model.Homed (StandsFor document) :=
    (Keeps.forM fun entry hentry => Operation.keeps_of_houses fun _ => insertBody_houses
      fun next hnext => .entry .body _ _ _ next hbodies hentry hnext).of_exec hloop₃ h₂
  have h₄ : u₄.model.Homed (StandsFor document) :=
    (Keeps.forM fun entry _ => insertResponse_homes hN entry).of_exec hloop₄ h₃
  have h₅ : u₅.model.Homed (StandsFor document) :=
    (Keeps.forM fun entry hentry => Operation.keeps_of_houses fun _ => insertHeader_houses hN
      fun next hnext => .entry .header _ _ _ next hheaders hentry hnext).of_exec hloop₅ h₄
  rw [hlast]
  exact (Operation.insertAll_homes hN).of_exec hloop₆ h₅

/-! ## Conversions -/

/-- **The aliases of a finished model come from its references**, where the paths were at home
before. -/
theorem chained_of_finish {N : String → String → Prop} {m m' : Model}
    (hsound : Standard.pending.Sound m) (hopen : m.finalized = false) (hhomed : m.Homed N)
    (hfinish : m.finish = (m', none)) : m'.Chained N := by
  have hm := hsound.pending hopen
  have hfinishes := Model.finishes_of_finish hm hfinish
  have hpaths := hfinishes.namedReferences
  refine ⟨fun i hi => hfinishes.leads hm.registered hi, fun i j hij => ?_,
    fun path i j hpath hij => ?_⟩
  · obtain ⟨item, t, hitem, ht, hindex⟩ := hfinishes.of_aliasTo hm.registered hij
    have hpromise := (hsound.definitions i item hitem).refs t (Shape.mem_refs_of_target? ht)
    cases t with
    | back b =>
      cases Model.eq_of_indexOf_back hindex
      exact .inl (by have := (hpromise.2 _ rfl).2; omega)
    | forward path => exact .inr ⟨path, hpaths ▸ Model.get?_of_indexOf_forward hindex⟩
    | resolved b => cases hpromise.1
  · obtain ⟨item, t, hitem, ht, hindex⟩ := hfinishes.of_aliasTo hm.registered hij
    rw [hpaths] at hpath ⊢
    obtain ⟨shape, ⟨k, item', hk, hitem', rfl⟩, hsuits⟩ := hhomed path i hpath
    cases Int.ofNat_inj.mp hk
    cases hitem.symm.trans hitem'
    rcases hsuits t ht with ⟨_, _, rfl, ⟨k, proper, rfl, hproper, rfl⟩, hnone⟩ |
      ⟨next, hnext, hbecomes⟩
    · cases Int.ofNat_inj.mp (Model.eq_of_indexOf_back hindex)
      exact .inl (hfinishes.isProper hm.registered ⟨proper, hproper, hnone⟩)
    · refine .inr ⟨next, hnext, ?_⟩
      rcases hbecomes with rfl | ⟨index, rfl, hget⟩
      · exact Model.get?_of_indexOf_forward hindex
      · rw [Model.eq_of_indexOf_back hindex]
        exact hget

/-- **Aliases end, unless a component stands for itself.** From every item of a converted document
aliases lead to an item that is no alias, or else to the item of a path from which they come round
to that item, and then the component of that path stands for itself through a chain of references.
No item has both. -/
theorem aliases_end_or_ring {document : Document} {options : ConversionOptions}
    {docs : Option Docs.Fetcher} {model : Model} (hrun : (run document options docs).1 = .ok model) :
    ∀ i, i < model.size →
      (¬model.AliasEnds i ↔ ∃ path, ∃ j : Nat, model.namedReferences.get? path = some (j : Int) ∧
        ReflTransGen model.AliasTo i j ∧ TransGen model.AliasTo j j ∧
        TransGen (StandsFor document) path path) := by
  obtain ⟨w, hconstruct, hfinish⟩ := run_eq_ok_iff.mp hrun
  have hempty : Standard.pending.Sound (start options docs).model := Standard.sound_empty _
  have hsteps := ((construct_along (S := .pending) document).runs hempty _ rfl).1
  rw [hconstruct] at hsteps
  have hchained : model.Chained (StandsFor document) :=
    chained_of_finish (hempty.steps hsteps) hsteps.finalized_eq (homed_of_construct hconstruct) hfinish
  intro i hi
  refine ⟨fun hnot => (hchained.ends_or_ring hi).resolve_left hnot, ?_⟩
  rintro ⟨path, j, _, hij, hring, _⟩ hends
  exact (hends.of_reflTransGen hij).not_ring hring

/-- A reference to a shared schema. -/
def referenceTo (key : String) : Document :=
  .object [(.text "$ref", .text ("#/components/schemas/" ++ key))]

/-- A document with nothing but shared schemas. -/
def schemasDocument (schemas : List (Document × Document)) : Document :=
  .object [(.text "components", .object [(.text "schemas", .object schemas)])]

/-- A schema that is another name for one that comes later, and two that are nothing but other names
for each other. -/
def ringDocument : Document :=
  schemasDocument
    [(.text "Title", referenceTo "Line"), (.text "Line", .object [(.text "type", .text "string")]),
      (.text "Ping", referenceTo "Pong"), (.text "Pong", referenceTo "Ping")]

set_option maxRecDepth 8000 in
/-- The first schema ends at the second one; the other two stand for themselves. -/
theorem ringDocument_ring :
    ∃ model, (run ringDocument {} none).1 = .ok model ∧ model.AliasEnds 0 ∧ ¬model.AliasEnds 2 ∧
      ∃ path, TransGen (StandsFor ringDocument) path path := by
  obtain ⟨model, hrun, hsize, htitle, hline, hping, hpong⟩ :
      ∃ model, (run ringDocument {} none).1 = .ok model ∧ model.size = 4 ∧ model.AliasTo 0 1 ∧
        model.IsProper 1 ∧ model.AliasTo 2 3 ∧ model.AliasTo 3 2 :=
    ⟨_, rfl, rfl, ⟨_, rfl, rfl⟩, ⟨_, rfl, rfl⟩, ⟨_, rfl, rfl⟩, _, rfl, rfl⟩
  have hring : ¬model.AliasEnds 2 := fun hends => hends.not_ring (.tail (.single hping) hpong)
  obtain ⟨path, _, _, _, _, hstands⟩ := (aliases_end_or_ring hrun 2 (by omega)).mp hring
  exact ⟨model, hrun, .head htitle hline.aliasEnds, hring, path, hstands⟩

set_option maxRecDepth 8000 in
/-- A schema that is nothing but another name for itself is converted to an item that is nothing but
another name for itself: from there no item that is no alias is reached. -/
theorem selfReference_accepted :
    ∃ model, (run (schemasDocument [(.text "A", referenceTo "A")]) {} none).1 = .ok model ∧
      model.size = 1 ∧ model.AliasTo 0 0 ∧ ¬model.AliasEnds 0 := by
  obtain ⟨model, hrun, hsize, halias⟩ :
      ∃ model, (run (schemasDocument [(.text "A", referenceTo "A")]) {} none).1 = .ok model ∧
        model.size = 1 ∧ model.AliasTo 0 0 := ⟨_, rfl, rfl, _, rfl, rfl⟩
  exact ⟨model, hrun, hsize, halias, fun hends => hends.not_ring (.single halias)⟩

end Conversion

end TypedApi
