import TypedApi.Proofs.Bindings.Arguments
import TypedApi.Proofs.Bindings.Literals
/-!
When a model can be rendered.

A model that stands on its own gives the rendering nothing to trip over: every
reference leads to an item, and every variant has a name. What is left are two
faults of single items. One is a class of its own and is to be wrapped all the
same, which has no form; the other comes with documentation that is no text, which
is not noticed before it is to be written. The first item with a fault decides how
the rendering fails, and without one there is a definition for every item and a
method for every operation.
-/

set_option autoImplicit false

namespace TypedApi

open Bindings

/-! ## Items that cannot be rendered -/

namespace Bindings

/-- Whether documentation can be written, inside what it documents or in comments above it. What
counts as not given is left out. -/
def isWritable (inside : Bool) (docs : Document) : Bool :=
  !docs.holds ||
    match docs with
    | .text _ => true
    | .bytes bs => !inside || (stripBytes bs).isEmpty
    | _ => false

end Bindings

namespace Item

/-- An item that is to be wrapped but is a class of its own. -/
def Unwrappable (item : Item) : Prop :=
  item.newtype.isSome = true ∧ item.shape.isNominal = true

instance (item : Item) : Decidable item.Unwrappable :=
  inferInstanceAs (Decidable (_ ∧ _))

/-- Whether the documentation of an item is written inside its definition. -/
def isDocumentedInside (item : Item) : Bool :=
  item.newtype.isSome ||
    match item.shape with
    | .object _ | .stringEnum .. => true
    | _ => false

/-- An item whose documentation can be written if it is to be. -/
def Documentable (emitDocs : Bool) (item : Item) : Prop :=
  emitDocs = true → isWritable item.isDocumentedInside item.docs = true

instance (emitDocs : Bool) (item : Item) : Decidable (item.Documentable emitDocs) :=
  inferInstanceAs (Decidable (_ → _))

/-- An item that a definition can be written for. -/
structure Renderable (emitDocs : Bool) (item : Item) : Prop where
  wrappable : ¬item.Unwrappable
  documentable : item.Documentable emitDocs

instance (emitDocs : Bool) (item : Item) : Decidable (item.Renderable emitDocs) :=
  decidable_of_iff (¬item.Unwrappable ∧ item.Documentable emitDocs)
    ⟨fun h => ⟨h.1, h.2⟩, fun h => ⟨h.wrappable, h.documentable⟩⟩

/-- How the rendering fails at an item. -/
inductive Fails (emitDocs : Bool) (item : Item) : Failure → Prop
  | unwrappable : item.Unwrappable →
    Fails emitDocs item ⟨.noAlias item.generatedName item.shape.kindName, none⟩
  | undocumented : ¬item.Unwrappable → ¬item.Documentable emitDocs → Fails emitDocs item .malformed

end Item

namespace Bindings

/-- The kind of body that an item has: as a wrapper if it is to be wrapped, and else by its shape,
with a field, a member or an alternative for each of its parts. -/
def Body.Fits (item : Item) : Body → Prop
  | .wrapper _ _ => item.newtype.isSome = true
  | .record _ fields =>
    item.newtype = none ∧ ∃ members, item.shape = .object members ∧ fields.length = members.length
  | .enumeration _ members other =>
    item.newtype = none ∧ ∃ variants extensible, item.shape = .stringEnum variants extensible ∧
      members.map Prod.snd = variants ∧ other.isSome = extensible
  | .union _ discriminant alternatives _ =>
    item.newtype = none ∧ ∃ variants, item.shape = .oneOf discriminant variants ∧
      alternatives.length = variants.length
  | .synonym _ _ => item.newtype = none ∧ item.shape.isNominal = false

/-! ## Documentation -/

/-- A step that gives a result if something holds, and otherwise fails since the document is
malformed. -/
structure Decides {α : Type} (p : Prop) (x : Except Failure α) : Prop where
  made : p → ∃ a, x = .ok a
  malformed : ¬p → x = .error .malformed

/-- Documentation that is not to be written can be. -/
theorem isWritable_of_not_given {emitDocs : Bool} {docs : Document}
    (h : ¬(emitDocs && docs.holds) = true) (inside : Bool) :
    emitDocs = true → isWritable inside docs = true := by
  rintro rfl
  rw [Bool.true_and, Bool.not_eq_true] at h
  unfold isWritable
  rw [h]
  rfl

/-- A literal is written for texts and for blank bytes only. -/
theorem decides_docLiteral (emitDocs : Bool) (indent : Nat) (docs : Document) :
    Decides (emitDocs = true → isWritable true docs = true) (docLiteral emitDocs indent docs) := by
  unfold docLiteral
  split
  · rename_i hgiven
    obtain ⟨hemit, hholds⟩ := Bool.and_eq_true_iff.mp hgiven
    split
    · exact ⟨fun _ => ⟨_, rfl⟩, fun h => absurd (fun _ => by simp [isWritable]) h⟩
    · rename_i bs
      by_cases hblank : (stripBytes bs).isEmpty = true
      · rw [if_pos hblank]
        exact ⟨fun _ => ⟨none, rfl⟩, fun h => absurd (fun _ => by simp [isWritable, hblank]) h⟩
      · rw [if_neg hblank]
        exact ⟨fun h => absurd (h hemit) (by simp [isWritable, hholds, hblank]), fun _ => rfl⟩
    · exact ⟨fun h => absurd (h hemit) (by simp [isWritable, hholds]), fun _ => rfl⟩
  · rename_i hgiven
    exact ⟨fun _ => ⟨none, rfl⟩, fun h => absurd (isWritable_of_not_given hgiven true) h⟩

/-- Comments are written for texts and bytes only. -/
theorem decides_comments (emitDocs : Bool) (docs : Document) :
    Decides (emitDocs = true → isWritable false docs = true) (comments emitDocs docs) := by
  unfold comments
  split
  · rename_i hgiven
    obtain ⟨hemit, hholds⟩ := Bool.and_eq_true_iff.mp hgiven
    split
    · exact ⟨fun _ => ⟨_, rfl⟩, fun h => absurd (fun _ => by simp [isWritable]) h⟩
    · exact ⟨fun _ => ⟨_, rfl⟩, fun h => absurd (fun _ => by simp [isWritable]) h⟩
    · exact ⟨fun h => absurd (h hemit) (by simp [isWritable, hholds]), fun _ => rfl⟩
  · rename_i hgiven
    exact ⟨fun _ => ⟨[], rfl⟩, fun h => absurd (isWritable_of_not_given hgiven false) h⟩

/-! ## Items -/

section Items

variable {m : Model} {emitDocs : Bool} {item : Item}

/-- The two ways in which the body of an item is settled: it is made, or it fails for a fault of the
item. -/
def Settles (emitDocs : Bool) (item : Item) (x : Except Failure Body) : Prop :=
  (item.Renderable emitDocs ∧ ∃ body, x = .ok body ∧ body.Fits item) ∨
    ∃ e, x = .error e ∧ item.Fails emitDocs e

/-- Where all else is made, the documentation settles it. -/
theorem settles_of_decides {α : Type} {x : Except Failure α} {f : α → Body}
    (hwrap : ¬item.Unwrappable) (hdecides : Decides (item.Documentable emitDocs) x)
    (hfits : ∀ a, (f a).Fits item) : Settles emitDocs item (x >>= fun a => .ok (f a)) := by
  by_cases hdocs : item.Documentable emitDocs
  · obtain ⟨a, rfl⟩ := hdecides.made hdocs
    exact .inl ⟨⟨hwrap, hdocs⟩, f a, rfl, hfits a⟩
  · rw [hdecides.malformed hdocs]
    exact .inr ⟨_, rfl, .undocumented hwrap hdocs⟩

theorem settles_docLiteral {f : Option String → Body} (hwrap : ¬item.Unwrappable)
    (hinside : item.isDocumentedInside = true) (hfits : ∀ a, (f a).Fits item) :
    Settles emitDocs item (docLiteral emitDocs 4 item.docs >>= fun a => .ok (f a)) := by
  refine settles_of_decides hwrap ?_ hfits
  rw [Item.Documentable, hinside]
  exact decides_docLiteral emitDocs 4 item.docs

theorem settles_comments {f : List String → Body} (hwrap : ¬item.Unwrappable)
    (houtside : item.isDocumentedInside = false) (hfits : ∀ a, (f a).Fits item) :
    Settles emitDocs item (comments emitDocs item.docs >>= fun a => .ok (f a)) := by
  refine settles_of_decides hwrap ?_ hfits
  rw [Item.Documentable, houtside]
  exact decides_comments emitDocs item.docs

/-- A step that gives a result everywhere in a list gives one for the list. -/
theorem exists_mapM_eq {α β ε : Type} {f : α → Except ε β} {l : List α}
    (h : ∀ a ∈ l, ∃ b, f a = .ok b) : ∃ bs, l.mapM f = .ok bs := by
  induction l with
  | nil => exact ⟨[], rfl⟩
  | cons a l ih =>
    obtain ⟨b, hb⟩ := h a List.mem_cons_self
    obtain ⟨bs, hbs⟩ := ih fun a ha => h a (List.mem_cons_of_mem _ ha)
    rw [List.mapM_cons, hb, hbs]
    exact ⟨b :: bs, rfl⟩

/-- The fields for members whose references lead to items are made. -/
theorem exists_fieldsFrom {members : Table Member} (taken : List String)
    (h : ∀ p ∈ members, Grounds m p.2.definition) :
    ∃ fields, fieldsFrom m taken members = .ok fields := by
  induction members generalizing taken with
  | nil => exact ⟨[], rfl⟩
  | cons p rest ih =>
    obtain ⟨property, member⟩ := p
    obtain ⟨_, name, _, _, hname, _⟩ := exists_ofRef (h _ List.mem_cons_self)
    obtain ⟨fields, hfields⟩ := ih (Name.deconflict (fieldName property) taken :: taken)
      fun p hp => h p (List.mem_cons_of_mem _ hp)
    rw [fieldsFrom, hname]
    dsimp only [bind, Except.bind]
    rw [hfields]
    exact ⟨_, rfl⟩

/-- An alternative is made for a variant that has its name. -/
theorem exists_alternativeOf {v : Variant} (position : Nat) (hname : v.Presentable)
    (h : Grounds m v.definition) : ∃ a, alternativeOf m position v = .ok a := by
  obtain ⟨name, hnamed, _⟩ := hname.named
  obtain ⟨_, _, _, _, hlabel, hwritten⟩ := exists_ofRef h
  have hdisplay : v.displayName = .ok name := by
    rw [Variant.displayName, hnamed]
  rw [alternativeOf, hdisplay, hwritten, hlabel]
  exact ⟨_, rfl⟩

/-- An item that is no class of its own has a type. -/
theorem exists_ofItem (position : Nat) (hgrounds : ∀ r ∈ item.shape.refs, Grounds m r)
    (hnominal : item.shape.isNominal = false) :
    ∃ type, TypeExpr.ofItem m position item = .ok type := by
  have hwritten : ∀ r ∈ item.shape.refs, ∃ e, TypeExpr.ofRef m (some position) r = .ok e := by
    intro r hr
    obtain ⟨_, _, _, _, _, hwritten⟩ := exists_ofRef (hgrounds r hr)
    exact ⟨_, hwritten position⟩
  unfold TypeExpr.ofItem
  cases hshape : item.shape with
  | scalar s => exact ⟨_, rfl⟩
  | map value =>
    cases value with
    | none => exact ⟨_, rfl⟩
    | some r =>
      obtain ⟨e, he⟩ := hwritten r (by rw [hshape]; exact List.mem_cons_self)
      dsimp only
      rw [he]
      exact ⟨_, rfl⟩
  | list r | set r | synonym r | override _ _ _ _ r =>
    obtain ⟨e, he⟩ := hwritten r (by rw [hshape]; exact List.mem_cons_self)
    dsimp only
    rw [he]
    exact ⟨_, rfl⟩
  | object | stringEnum | oneOf =>
    rw [hshape] at hnominal
    cases hnominal

/-- A class of its own has no type. -/
theorem ofItem_eq_noAlias (m : Model) (position : Nat) (hnominal : item.shape.isNominal = true) :
    TypeExpr.ofItem m position item = fail (.noAlias item.generatedName item.shape.kindName) := by
  unfold TypeExpr.ofItem
  cases hshape : item.shape with
  | object | stringEnum | oneOf => rfl
  | _ =>
    rw [hshape] at hnominal
    cases hnominal

/-- The documentation of a type with a name only stands above it. -/
theorem isDocumentedInside_eq_false (hnone : item.newtype = none)
    (hnominal : item.shape.isNominal = false) : item.isDocumentedInside = false := by
  unfold Item.isDocumentedInside
  rw [hnone]
  cases hshape : item.shape with
  | object | stringEnum =>
    rw [hshape] at hnominal
    cases hnominal
  | _ => rfl

/-- The body of an item that is to be wrapped. -/
theorem settles_wrapper (position : Nat) (hgrounds : ∀ r ∈ item.shape.refs, Grounds m r)
    (hnewtype : item.newtype.isSome = true) :
    Settles emitDocs item (bodyOf m emitDocs position item) := by
  rw [bodyOf, if_pos hnewtype]
  by_cases hnominal : item.shape.isNominal = true
  · rw [ofItem_eq_noAlias m position hnominal]
    exact .inr ⟨_, rfl, .unwrappable ⟨hnewtype, hnominal⟩⟩
  · obtain ⟨type, htype⟩ := exists_ofItem position hgrounds (eq_false_of_ne_true hnominal)
    rw [htype]
    refine settles_docLiteral (fun h => hnominal h.2) ?_ fun _ => hnewtype
    rw [Item.isDocumentedInside, hnewtype, Bool.true_or]

/-- **The body of an item is settled by the item**: it is made if the item has none of the two
faults, and otherwise it fails for one. -/
theorem settles_bodyOf (emitDocs : Bool) (position : Nat) (hgrounds : ∀ r ∈ item.shape.refs, Grounds m r)
    (hpresentable : ∀ v ∈ item.shape.variants, v.Presentable) :
    Settles emitDocs item (bodyOf m emitDocs position item) := by
  by_cases hnewtype : item.newtype.isSome = true
  · exact settles_wrapper position hgrounds hnewtype
  · rw [bodyOf, if_neg hnewtype]
    have hnone : item.newtype = none := by simpa using hnewtype
    have hwrap : ¬item.Unwrappable := fun h => hnewtype h.1
    split
    · rename_i members hshape
      rw [hshape] at hgrounds
      obtain ⟨fields, hfields⟩ := exists_fieldsFrom [] fun p hp =>
        hgrounds p.2.definition (List.mem_map_of_mem (f := fun p : String × Member => p.2.definition) hp)
      rw [hfields]
      refine settles_docLiteral hwrap (by simp [Item.isDocumentedInside, hshape]) fun _ => ?_
      exact ⟨hnone, members, hshape, (allotted_fieldsFrom hfields).2.length_eq.symm⟩
    · rename_i variants extensible hshape
      refine settles_docLiteral hwrap (by simp [Item.isDocumentedInside, hshape]) fun _ => ?_
      refine ⟨hnone, variants, extensible, hshape, map_snd_membersFrom _ _, ?_⟩
      rw [hshape]
      cases extensible <;> rfl
    · rename_i discriminant variants hshape
      rw [hshape] at hgrounds hpresentable
      have hmade : ∀ v ∈ variants, ∃ a, alternativeOf m position v = .ok a := fun v hv =>
        exists_alternativeOf position (hpresentable v hv) (hgrounds _ (List.mem_map_of_mem hv))
      obtain ⟨alternatives, halternatives⟩ := exists_mapM_eq hmade
      rw [halternatives]
      refine settles_comments hwrap (by simp [Item.isDocumentedInside, hshape, hnone]) fun _ => ?_
      refine ⟨hnone, variants, hshape, ?_⟩
      rw [List.length_map]
      exact (forall₂_of_mapM halternatives).length_eq.symm
    · rename_i hobject henumeration hunion
      have hnominal : item.shape.isNominal = false := by
        cases hshape : item.shape with
        | object members => exact absurd hshape (hobject members)
        | stringEnum variants extensible => exact absurd hshape (henumeration variants extensible)
        | oneOf discriminant variants => exact absurd hshape (hunion discriminant variants)
        | _ => rfl
      obtain ⟨type, htype⟩ := exists_ofItem position hgrounds hnominal
      rw [htype]
      exact settles_comments hwrap (isDocumentedInside_eq_false hnone hnominal)
        fun _ => ⟨hnone, hnominal⟩

end Items

/-! ## Definitions -/

/-- Whether a line gives a name its meaning: as the head of a class or as an assignment. -/
def Defines (name line : String) : Prop :=
  ∃ rest, line = "class " ++ name ++ "(" ++ rest ∨ line = name ++ " = " ++ rest

/-- The definition for an item: it defines the name of the item, by a body of the kind that the item
has. -/
structure BlockFor (item : Item) (d : Definition) : Prop where
  name : d.name = item.generatedName
  fits : d.body.Fits item
  defined : ∃ line ∈ d.lines, Defines d.name line

/-- Every definition defines its name. -/
theorem exists_defining_line (d : Definition) : ∃ line ∈ d.lines, Defines d.name line := by
  rw [Definition.lines]
  cases d.body with
  | synonym comments type =>
    exact ⟨_, List.mem_append_right _ List.mem_cons_self, type.text, .inr rfl⟩
  | wrapper docs type =>
    exact ⟨_, List.mem_cons_self, "RootModel[" ++ type.text ++ "]):", .inl (by
      simp [← String.toList_inj])⟩
  | record docs fields =>
    exact ⟨_, List.mem_cons_self, "BaseModel):", .inl (by simp [← String.toList_inj])⟩
  | enumeration docs members other =>
    exact ⟨_, List.mem_cons_self, "str, Enum):", .inl (by simp [← String.toList_inj])⟩
  | union comments discriminant alternatives type =>
    exact ⟨_, List.mem_append_right _ List.mem_cons_self, type.text, .inr rfl⟩

variable {m : Model} {emitDocs : Bool}

/-- A failure of the first item with a fault. -/
def FirstFails (emitDocs : Bool) (items : List Item) (e : Failure) : Prop :=
  ∃ before item after, items = before ++ item :: after ∧
    (∀ other ∈ before, other.Renderable emitDocs) ∧ item.Fails emitDocs e

/-- **The definitions for items**: one for each, in order, if none of them has a fault, and
otherwise the failure of the first that has one. -/
theorem definitionsFrom_cases {items : List Item} (emitDocs : Bool) (position : Nat)
    (hgrounds : ∀ item ∈ items, ∀ r ∈ item.shape.refs, Grounds m r)
    (hpresentable : ∀ item ∈ items, ∀ v ∈ item.shape.variants, v.Presentable) :
    ((∀ item ∈ items, item.Renderable emitDocs) ∧ ∃ ds,
      definitionsFrom m emitDocs position items = .ok ds ∧ List.Forall₂ BlockFor items ds) ∨
    ∃ e, FirstFails emitDocs items e ∧ definitionsFrom m emitDocs position items = .error e := by
  induction items generalizing position with
  | nil => exact .inl ⟨by simp, [], rfl, .nil⟩
  | cons item rest ih =>
    rw [definitionsFrom, definitionOf]
    have hsettles := settles_bodyOf emitDocs position
      (hgrounds item List.mem_cons_self) (hpresentable item List.mem_cons_self)
    rcases hsettles with ⟨hrenderable, body, hbody, hfits⟩ | ⟨e, he, hfails⟩
    · rw [hbody]
      have hrest := ih (position + 1) (fun i hi => hgrounds i (List.mem_cons_of_mem _ hi))
        fun i hi => hpresentable i (List.mem_cons_of_mem _ hi)
      rcases hrest with ⟨hall, ds, hds, hblocks⟩ | ⟨e, ⟨before, other, after, heq, hbefore, hfails⟩, he⟩
      · refine .inl ⟨List.forall_mem_cons.mpr ⟨hrenderable, hall⟩, ⟨_, body⟩ :: ds, ?_,
          .cons ⟨rfl, hfits, exists_defining_line _⟩ hblocks⟩
        dsimp only [Except.map, bind, Except.bind]
        rw [hds]
        rfl
      · refine .inr ⟨e, ⟨item :: before, other, after, by rw [heq, List.cons_append],
          List.forall_mem_cons.mpr ⟨hrenderable, hbefore⟩, hfails⟩, ?_⟩
        dsimp only [Except.map, bind, Except.bind]
        rw [he]
    · rw [he]
      exact .inr ⟨e, ⟨[], item, rest, rfl, by simp, hfails⟩, rfl⟩

/-! ## Modules -/

/-- A module with all that a model asks for: a definition for each item and a method for each
operation, in order. -/
structure Complete (m : Model) (emitDocs : Bool) (b : Bindings) : Prop where
  definitions : List.Forall₂ BlockFor m.definitions b.definitions
  methods : List.Forall₂ (MethodFor m emitDocs) m.operations b.methods

/-- **A closed model is rendered** completely if none of its items has a fault, and otherwise the
first that has one decides how the rendering fails. -/
theorem ofModel_cases (hclosed : m.Closed) (emitDocs : Bool) :
    ((∀ item ∈ m.definitions, item.Renderable emitDocs) ∧
      ∃ b, ofModel m emitDocs = .ok b ∧ Complete m emitDocs b) ∨
    ∃ e, FirstFails emitDocs m.definitions e ∧ ofModel m emitDocs = .error e := by
  have hgrounds : ∀ item ∈ m.definitions, ∀ r ∈ item.shape.refs, Grounds m r := by
    intro item hitem r hr
    exact hclosed.resolved r (Model.refs_shape_subset hitem hr)
  have hpresentable : ∀ item ∈ m.definitions, ∀ v ∈ item.shape.variants, v.Presentable := by
    intro item hitem v hv
    exact hclosed.presentable v (Model.mem_variants.mpr (.inl ⟨item, hitem, hv⟩))
  rw [ofModel, hclosed.finalized]
  rcases definitionsFrom_cases emitDocs 0 hgrounds hpresentable with
    ⟨hall, ds, hds, hblocks⟩ | ⟨e, hfails, he⟩
  · have hrefs : ∀ o ∈ m.operations, ∀ r ∈ o.refs, Grounds m r :=
      fun o ho => grounds_of_mem_operations hclosed ho
    obtain ⟨methods, hmethods⟩ := exists_methodsFrom emitDocs [] hrefs
    rw [hds]
    refine .inl ⟨hall, ⟨ds, Name.deconflict "Api" m.items.keys, methods⟩, ?_, hblocks,
      forall₂_methodsFrom hrefs hmethods⟩
    rw [hmethods]
    rfl
  · rw [he]
    exact .inr ⟨e, hfails, rfl⟩

/-- An item with a fault fails to be rendered by it. -/
theorem not_renderable_of_fails {item : Item} {e : Failure} (h : item.Fails emitDocs e) :
    ¬item.Renderable emitDocs := by
  intro hrenderable
  cases h with
  | unwrappable hwrap => exact hrenderable.wrappable hwrap
  | undocumented _ hdocs => exact hdocs hrenderable.documentable

/-- Where all documentation can be written, a failure is one of an item that cannot be wrapped. -/
theorem unwrappable_of_firstFails {items : List Item} {e : Failure}
    (hdocs : ∀ item ∈ items, item.Documentable emitDocs) (h : FirstFails emitDocs items e) :
    e.problem.kind = .rendering ∧ ∃ item ∈ items, item.Unwrappable := by
  obtain ⟨before, item, after, rfl, _, hfails⟩ := h
  have hitem : item ∈ before ++ item :: after := by simp
  cases hfails with
  | unwrappable hwrap => exact ⟨rfl, item, hitem, hwrap⟩
  | undocumented _ hnot => exact absurd (hdocs item hitem) hnot

end Bindings

namespace Conversion

open Bindings

/-- **Every converted model is rendered, or an item stands against it.** If the documentation that is
to be written is text, the rendering fails exactly if some item is to be wrapped but is a class of
its own, and then with an error of the rendering; in every other case there is a module with a
definition for each item and a method for each operation. Documentation that is no text makes the
conversion's input malformed, which is noticed now: of the items with either fault the first
decides. -/
theorem rendered_of_run {document : Document} {options : ConversionOptions}
    {docs : Option Docs.Fetcher} {m : Model} (hrun : (run document options docs).1 = .ok m)
    (emitDocs : Bool) :
    ((∀ item ∈ m.definitions, item.Documentable emitDocs) →
      ((∃ e, ofModel m emitDocs = .error e) ↔ ∃ item ∈ m.definitions, item.Unwrappable) ∧
      ∀ e, ofModel m emitDocs = .error e → e.problem.kind = .rendering) ∧
    ((∀ item ∈ m.definitions, item.Renderable emitDocs) →
      ∃ b, ofModel m emitDocs = .ok b ∧ Complete m emitDocs b) ∧
    ((∃ item ∈ m.definitions, ¬item.Renderable emitDocs) →
      ∃ e, FirstFails emitDocs m.definitions e ∧ ofModel m emitDocs = .error e) := by
  obtain ⟨w, hconstruct, hfinish⟩ := run_eq_ok_iff.mp hrun
  have hpending := pending_construct document options docs
  rw [hconstruct] at hpending
  have hclosed : m.Closed := hpending.closed_of_finish_eq hfinish
  rcases ofModel_cases hclosed emitDocs with ⟨hall, b, hb, hcomplete⟩ | ⟨e, hfails, he⟩
  · refine ⟨fun _ => ⟨⟨?_, ?_⟩, ?_⟩, fun _ => ⟨b, hb, hcomplete⟩, ?_⟩
    · rintro ⟨e, he⟩
      rw [hb] at he
      cases he
    · rintro ⟨item, hitem, hwrap⟩
      exact absurd hwrap (hall item hitem).wrappable
    · intro e he
      rw [hb] at he
      cases he
    · rintro ⟨item, hitem, hnot⟩
      exact absurd (hall item hitem) hnot
  · refine ⟨fun hdocs => ?_, fun hall => ?_, fun _ => ⟨e, hfails, he⟩⟩
    · obtain ⟨hkind, hitem⟩ := unwrappable_of_firstFails hdocs hfails
      refine ⟨⟨fun _ => hitem, fun _ => ⟨e, he⟩⟩, fun e' he' => ?_⟩
      cases he.symm.trans he'
      exact hkind
    · obtain ⟨before, item, after, heq, _, hfault⟩ := hfails
      have hitem : item ∈ m.definitions := by simp [heq]
      exact absurd (hall item hitem) (not_renderable_of_fails hfault)

/-- A document with two parameters, the first with a description, the second an object. -/
def describedDocument (description : Document) (wrapped : Bool) : Document :=
  let parameter (name : String) (fields : List (Document × Document)) : Document :=
    .object ([(.text "name", .text name), (.text "in", .text "query")] ++ fields)
  .object
    [(.text "components", .object
      [(.text "parameters", .object
        [(.text "P", parameter "a"
            [(.text "description", description),
              (.text "schema", .object [(.text "type", .text "string")])]),
          (.text "Q", parameter "b"
            [(.text "schema", .object
              [(.text "type", .text "object"), (.text "x-newtype", .bool wrapped)])])])])]

/-- The kind of a failure, if there is one. -/
def failureKind? {α : Type} : Except Failure α → Option ProblemKind
  | .ok _ => none
  | .error e => some e.problem.kind

theorem exists_of_failureKind? {α : Type} {x : Except Failure α} {kind : ProblemKind}
    (h : failureKind? x = some kind) : ∃ e, x = .error e ∧ e.problem.kind = kind := by
  cases x with
  | ok a => cases h
  | error e => exact ⟨e, rfl, Option.some.inj h⟩

/-- What can be tested of the model that a document is converted to. -/
theorem exists_of_tested (document : Document) {p : Model → Prop} [DecidablePred p]
    (h : (run document {} none).1.toOption.any (fun m => decide (p m)) = true) :
    ∃ m, (run document {} none).1 = .ok m ∧ p m := by
  cases hrun : (run document {} none).1 with
  | error e =>
    rw [hrun] at h
    cases h
  | ok m =>
    rw [hrun] at h
    exact ⟨m, rfl, of_decide_eq_true h⟩

/-- An object that is to be wrapped is the one reason for the failure here; without it, there is a
module. -/
theorem describedDocument_rendered :
    (∃ m e, (run (describedDocument (.text "A.") true) {} none).1 = .ok m ∧
      ofModel m true = .error e ∧ e.problem.kind = .rendering) ∧
    ∃ m b, (run (describedDocument (.text "A.") false) {} none).1 = .ok m ∧
      m.names = ["A", "B"] ∧ ofModel m true = .ok b ∧ Complete m true b := by
  constructor
  · obtain ⟨m, hrun, hdocs, hwrap⟩ := exists_of_tested (describedDocument (.text "A.") true)
      (p := fun m => (∀ item ∈ m.definitions, item.Documentable true) ∧
        ∃ item ∈ m.definitions, item.Unwrappable) (by decide +kernel)
    obtain ⟨hiff, hkind⟩ := (rendered_of_run hrun true).1 hdocs
    obtain ⟨e, he⟩ := hiff.mpr hwrap
    exact ⟨m, e, hrun, he, hkind e he⟩
  · obtain ⟨m, hrun, hnames, hall⟩ := exists_of_tested (describedDocument (.text "A.") false)
      (p := fun m => m.names = ["A", "B"] ∧ ∀ item ∈ m.definitions, item.Renderable true)
      (by decide +kernel)
    obtain ⟨b, hb, hcomplete⟩ := (rendered_of_run hrun true).2.1 hall
    exact ⟨m, b, hrun, hnames, hb, hcomplete⟩

/-- A description that is a number is not noticed before it is to be written, and then it comes
before the object that is to be wrapped. -/
theorem describedDocument_malformed :
    ∃ m e, (run (describedDocument (.int 5) true) {} none).1 = .ok m ∧
      (∃ item ∈ m.definitions, item.Unwrappable) ∧
      ofModel m true = .error e ∧ e.problem.kind = .malformed := by
  obtain ⟨m, hrun, hwrap, hfailed⟩ := exists_of_tested (describedDocument (.int 5) true)
    (p := fun m => (∃ item ∈ m.definitions, item.Unwrappable) ∧
      failureKind? (ofModel m true) = some .malformed) (by decide +kernel)
  obtain ⟨e, he, hkind⟩ := exists_of_failureKind? hfailed
  exact ⟨m, e, hrun, hwrap, he, hkind⟩

end Conversion

end TypedApi
