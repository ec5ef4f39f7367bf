import TypedApi.Proofs.Bindings.Mentions
import TypedApi.Proofs.Bindings.Scopes
/-!
Expressions that are evaluated while a module is loaded.

The definitions of a module are evaluated in order: the expression of a synonym, of
a wrapper or of a union must not mention what comes only later. It mentions names
that every module has, and the names of the definitions that the item refers to;
those that stand no earlier than the item itself are quoted.

A mention means what the model means by it only if no other definition has the
name, and if no definition hides a name that every module has. The names of
definitions are distinct, none of them is reserved, and none begins with a small
letter, as the types do that are built in.
-/

set_option autoImplicit false

namespace TypedApi

namespace Bindings

/-! ## Names that every module has -/

/-- The names that a line of a module imports. -/
def importedBy (line : String) : List String :=
  match mentions line with
  | .bare "from" :: .bare _ :: .bare "import" :: names => names.map Mention.name
  | _ => []

/-- The names used here that are built in. -/
def builtins : List String :=
  ["None", "bool", "bytes", "dict", "float", "int", "str"]

/-- The names that a module has without a definition: those built in, and those imported by the
lines that it begins with. -/
def provided : List String :=
  builtins ++ preamble.flatMap importedBy

theorem provided_eq : provided =
    ["None", "bool", "bytes", "dict", "float", "int", "str", "annotations", "date", "datetime",
      "Enum", "IPv4Address", "IPv6Address", "Annotated", "Any", "FrozenSet", "List", "Literal",
      "Optional", "Protocol", "Union", "UUID", "BaseModel", "ConfigDict", "Field", "RootModel"] := by
  decide +kernel

theorem isIdentifier_of_mem_provided {name : String} (h : name ∈ provided) :
    Name.IsIdentifier name := by
  have hall : ∀ word ∈ provided, Name.IsIdentifier word := by
    rw [provided_eq]
    decide +kernel
  exact hall name h

/-- A name made for a definition is none of those that a module has without it. -/
theorem not_mem_provided {name : String} (hproper : Name.Proper name)
    (hfree : Name.isReserved name = false) : name ∉ provided := by
  have hall : ∀ word ∈ provided, Name.isReserved word = true ∨
      Name.isSmall (word.toList.headD '_') = true := by
    rw [provided_eq]
    decide +kernel
  intro hmem
  rcases hall name hmem with h | h
  · rw [hfree] at h
    cases h
  · rw [hproper.head] at h
    cases h

/-- The mentions of names that a module must define. -/
def own (names : List Mention) : List Mention :=
  names.filter fun x =>
    match x with
    | .bare name => name ∉ provided
    | .quoted _ => true

/-- A mention is one that the module must define, or of a name that every module has. -/
theorem mem_own_or_provided {names : List Mention} {x : Mention} (h : x ∈ names) :
    x ∈ own names ∨ ∃ name ∈ provided, x = .bare name := by
  cases x with
  | quoted name => exact .inl (List.mem_filter.mpr ⟨h, rfl⟩)
  | bare name =>
    by_cases hname : name ∈ provided
    · exact .inr ⟨name, hname, rfl⟩
    · exact .inl (List.mem_filter.mpr ⟨h, by simpa using hname⟩)

/-! ## What is mentioned for a reference -/

/-- How the definition at a position mentions what a reference leads to. -/
def MentionedAs (m : Model) (position : Nat) (r : Ref) (x : Mention) : Prop :=
  ∃ (j : Nat) (name : String), r = .resolved (j : Int) ∧ m.names[j]? = some name ∧
    x = if position ≤ j then .quoted name else .bare name

/-- A resolved reference to an item. -/
def Grounds (m : Model) (r : Ref) : Prop :=
  ∃ index, r = .resolved index ∧ 0 ≤ index ∧ index < m.size

variable {m : Model} {position : Nat} {item : Item} {e : TypeExpr}

/-- A reference to an item is written with the name of the item, as it is where no position is
given, and in quotes at a position that the item does not stand before. -/
theorem exists_ofRef {r : Ref} (hr : Grounds m r) :
    ∃ (j : Nat) (name : String), r = .resolved (j : Int) ∧ m.names[j]? = some name ∧
      TypeExpr.ofRef m none r = .ok (.defined name) ∧
      ∀ position : Nat, TypeExpr.ofRef m (some position) r =
        .ok (if position ≤ j then .quoted name else .defined name) := by
  obtain ⟨index, rfl, hlow, hhigh⟩ := hr
  obtain ⟨j, rfl⟩ := Int.eq_ofNat_of_zero_le hlow
  have hj : j < m.definitions.length := by
    rw [Model.size] at hhigh
    omega
  have hname : m.names[j]? = some m.definitions[j].generatedName := by
    rw [Model.names, List.getElem?_map, List.getElem?_eq_getElem hj]
    rfl
  have hindex : m.indexOf (.resolved (j : Int)) = .ok (j : Int) := Model.indexOf_resolved hj
  have hitem := Model.itemAt_natCast (List.getElem?_eq_getElem hj)
  refine ⟨j, _, rfl, hname, ?_, fun position => ?_⟩
  · simp only [TypeExpr.ofRef, hindex, hitem, bind, Except.bind]
    rfl
  · simp only [TypeExpr.ofRef, hindex, hitem, bind, Except.bind]
    by_cases hle : position ≤ j
    · rw [if_pos hle]
      exact congrArg Except.ok (if_pos (by omega))
    · rw [if_neg hle]
      exact congrArg Except.ok (if_neg (by omega))

/-- **What a reference leads to is mentioned by its name**, in quotes if it does not stand before the
definition. -/
theorem mentioned_ofRef {r : Ref} (hr : Grounds m r)
    (h : TypeExpr.ofRef m (some position) r = .ok e) :
    ∃ x, MentionedAs m position r x ∧ e.mentioned = [x] := by
  obtain ⟨j, name, hr, hname, _, hwritten⟩ := exists_ofRef hr
  rw [hwritten] at h
  cases h
  refine ⟨_, ⟨j, name, hr, hname, rfl⟩, ?_⟩
  split
  · rfl
  · rfl

/-- What is mentioned for a reference is to be defined by the module. -/
theorem own_mentionedAs {r : Ref} {x : Mention} (hfree : ∀ name ∈ m.names, name ∉ provided)
    (h : MentionedAs m position r x) (names : List Mention) :
    own (x :: names) = x :: own names := by
  obtain ⟨j, name, _, hname, rfl⟩ := h
  have hnot := hfree name (List.mem_of_getElem? hname)
  rw [own, List.filter_cons_of_pos, own]
  split
  · rename_i name' heq
    split at heq
    · cases heq
    · cases heq
      simpa using hnot
  · rfl

/-- A name that every module has is not one to be defined. -/
theorem own_provided {name : String} (h : name ∈ provided) (names : List Mention) :
    own (.bare name :: names) = own names := by
  rw [own, List.filter_cons_of_neg, own]
  simpa using h

/-- The expression for a single reference. -/
theorem forall₂_ofRef {r : Ref} (hfree : ∀ name ∈ m.names, name ∉ provided) (hr : Grounds m r)
    (h : TypeExpr.ofRef m (some position) r = .ok e) :
    List.Forall₂ (MentionedAs m position) [r] (own e.mentioned) := by
  obtain ⟨x, hx, hnames⟩ := mentioned_ofRef hr h
  rw [hnames, own_mentionedAs hfree hx]
  exact .cons hx .nil

/-- A constructor that every module has mentions what its arguments do. -/
theorem own_applied {head : String} (h : head ∈ provided) (es : List TypeExpr) :
    own (TypeExpr.applied head es).mentioned = own (TypeExpr.allMentioned es) := by
  rw [TypeExpr.mentioned, own_provided h]

theorem own_optional (e : TypeExpr) : own e.optional.mentioned = own e.mentioned := by
  rw [TypeExpr.optional, own_applied (by simp [provided_eq]), TypeExpr.allMentioned,
    TypeExpr.allMentioned, List.append_nil]

theorem own_mapTo (e : TypeExpr) : own (TypeExpr.mapTo e).mentioned = own e.mentioned := by
  rw [TypeExpr.mapTo, own_applied (by simp [provided_eq]), TypeExpr.allMentioned,
    TypeExpr.allMentioned, TypeExpr.allMentioned, List.append_nil, TypeExpr.mentioned]
  exact own_provided (by simp [provided_eq]) _

theorem own_anyOneOf (es : List TypeExpr) :
    own (anyOneOf es).mentioned = own (TypeExpr.allMentioned es) := by
  match es with
  | [] => exact own_provided (by simp [provided_eq]) _
  | [e] =>
    rw [anyOneOf, TypeExpr.allMentioned, TypeExpr.allMentioned, List.append_nil]
  | e :: second :: rest => exact own_applied (by simp [provided_eq]) _

/-- A scalar is written with names that every module has. -/
theorem own_ofScalar (s : Scalar) : own (TypeExpr.ofScalar s).mentioned = [] := by
  have hends : ∀ low high, own (TypeExpr.within low high).mentioned = [] := by
    intro low high
    cases low <;> cases high <;>
      simp [TypeExpr.mentioned, TypeExpr.endMentions, own, provided_eq]
  cases s with
  | u32 | u64 | boundedI32 | boundedI64 => exact hends _ _
  | _ =>
    simp [TypeExpr.ofScalar, TypeExpr.mapTo, TypeExpr.mentioned, TypeExpr.allMentioned, own,
      provided_eq]

/-- **The type of an item mentions what the item refers to**, in order, and names that every module
has. -/
theorem forall₂_ofItem (hfree : ∀ name ∈ m.names, name ∉ provided)
    (hrefs : ∀ r ∈ item.shape.refs, Grounds m r) (h : TypeExpr.ofItem m position item = .ok e) :
    List.Forall₂ (MentionedAs m position) item.shape.refs (own e.mentioned) := by
  have hone : ∀ r e, item.shape.refs = [r] → TypeExpr.ofRef m (some position) r = .ok e →
      List.Forall₂ (MentionedAs m position) item.shape.refs (own e.mentioned) := by
    intro r e hr h
    rw [hr] at hrefs ⊢
    exact forall₂_ofRef hfree (hrefs r List.mem_cons_self) h
  have hwrapped : ∀ r head, item.shape.refs = [r] → head ∈ provided →
      (do return TypeExpr.applied head [← TypeExpr.ofRef m (some position) r]) = Except.ok e →
      List.Forall₂ (MentionedAs m position) item.shape.refs (own e.mentioned) := by
    intro r head hr hhead h
    obtain ⟨target, htarget, h⟩ := of_bind_eq_ok h
    cases h
    rw [own_applied hhead, TypeExpr.allMentioned, TypeExpr.allMentioned, List.append_nil]
    exact hone r target hr htarget
  rw [TypeExpr.ofItem] at h
  cases hshape : item.shape with
  | scalar s =>
    rw [hshape] at h
    cases h
    rw [own_ofScalar]
    exact .nil
  | list r =>
    rw [hshape] at h hwrapped
    exact hwrapped r "List" rfl (by simp [provided_eq]) h
  | set r =>
    rw [hshape] at h hwrapped
    exact hwrapped r "FrozenSet" rfl (by simp [provided_eq]) h
  | map value =>
    rw [hshape] at h hone
    cases value with
    | none =>
      cases h
      have hany : own (TypeExpr.builtin "Any").mentioned = [] :=
        own_provided (by simp [provided_eq]) []
      rw [own_mapTo, hany]
      exact .nil
    | some r =>
      obtain ⟨target, htarget, h⟩ := of_bind_eq_ok h
      cases h
      rw [own_mapTo]
      exact hone r target rfl htarget
  | synonym r | override readOnly writeOnly title description r =>
    rw [hshape] at h hone
    exact hone r e rfl h
  | object members | stringEnum texts extensible | oneOf discriminant variants =>
    rw [hshape] at h
    cases h

/-- The alternatives of a union mention what its variants refer to. -/
theorem forall₂_alternatives (hfree : ∀ name ∈ m.names, name ∉ provided) {variants : List Variant}
    {alternatives : List (Alternative × TypeExpr)}
    (hrefs : ∀ r ∈ variants.map Variant.definition, Grounds m r)
    (h : variants.mapM (alternativeOf m position) = .ok alternatives) :
    List.Forall₂ (MentionedAs m position) (variants.map Variant.definition)
      (own (TypeExpr.allMentioned (alternatives.map Prod.snd))) := by
  have hall := forall₂_of_mapM h
  clear h
  induction hall with
  | nil => exact .nil
  | @cons v alternative variants alternatives hv _ ih =>
    obtain ⟨name, _, hv⟩ := of_bind_eq_ok hv
    obtain ⟨written, hwritten, hv⟩ := of_bind_eq_ok hv
    obtain ⟨label, _, hv⟩ := of_bind_eq_ok hv
    cases hv
    obtain ⟨x, hx, hnames⟩ := mentioned_ofRef (hrefs _ List.mem_cons_self) hwritten
    rw [List.map_cons, List.map_cons, TypeExpr.allMentioned, hnames, List.singleton_append,
      own_mentionedAs hfree hx]
    exact .cons hx (ih fun r hr => hrefs r (List.mem_cons_of_mem _ hr))

/-! ## Definitions -/

/-- The expression of a definition that is evaluated while the module is loaded. -/
def Body.evaluated? : Body → Option TypeExpr
  | .synonym _ type => some type
  | .wrapper _ type => some type
  | .union _ _ _ type => some type
  | _ => none

/-- **What a definition evaluates mentions what its item refers to**, in order, and names that every
module has. -/
theorem forall₂_bodyOf {emitDocs : Bool} {body : Body} (hfree : ∀ name ∈ m.names, name ∉ provided)
    (hrefs : ∀ r ∈ item.shape.refs, Grounds m r) (h : bodyOf m emitDocs position item = .ok body)
    (he : body.evaluated? = some e) :
    List.Forall₂ (MentionedAs m position) item.shape.refs (own e.mentioned) := by
  have hnullable : ∀ (c : Prop) [Decidable c] (type : TypeExpr),
      own (if c then type.optional else type).mentioned = own type.mentioned := by
    intro c _ type
    split
    · exact own_optional type
    · rfl
  rw [bodyOf] at h
  split at h
  · obtain ⟨type, htype, h⟩ := of_bind_eq_ok h
    obtain ⟨docs, _, h⟩ := of_bind_eq_ok h
    cases h
    cases he
    rw [hnullable]
    exact forall₂_ofItem hfree hrefs htype
  · split at h
    · obtain ⟨fields, _, h⟩ := of_bind_eq_ok h
      obtain ⟨docs, _, h⟩ := of_bind_eq_ok h
      cases h
      cases he
    · obtain ⟨docs, _, h⟩ := of_bind_eq_ok h
      cases h
      cases he
    · rename_i discriminant variants hshape
      obtain ⟨alternatives, halternatives, h⟩ := of_bind_eq_ok h
      obtain ⟨lines, _, h⟩ := of_bind_eq_ok h
      cases h
      cases he
      rw [hshape] at hrefs ⊢
      rw [hnullable, own_anyOneOf]
      exact forall₂_alternatives hfree hrefs halternatives
    · obtain ⟨type, htype, h⟩ := of_bind_eq_ok h
      obtain ⟨lines, _, h⟩ := of_bind_eq_ok h
      cases h
      cases he
      rw [hnullable]
      exact forall₂_ofItem hfree hrefs htype

/-- A definition holds the line with the expression that it evaluates. -/
theorem evaluated_mem_lines {d : Definition} (he : d.body.evaluated? = some e) :
    d.name ++ " = " ++ e.text ∈ d.lines ∨
      "class " ++ d.name ++ "(RootModel[" ++ e.text ++ "]):" ∈ d.lines := by
  obtain ⟨name, body⟩ := d
  cases body with
  | synonym lines type =>
    cases he
    exact .inl (List.mem_append_right _ List.mem_cons_self)
  | wrapper docs type =>
    cases he
    exact .inr List.mem_cons_self
  | union lines discriminant alternatives type =>
    cases he
    exact .inl (List.mem_append_right _ List.mem_cons_self)
  | record | enumeration => cases he

/-! ## Modules -/

/-- Each definition of a module is that of the item at its position. -/
theorem definitionOf_of_definitionsFrom {emitDocs : Bool} {items : List Item}
    {ds : List Definition} (h : definitionsFrom m emitDocs position items = .ok ds) {i : Nat}
    {d : Definition} (hd : ds[i]? = some d) :
    ∃ item, items[i]? = some item ∧ definitionOf m emitDocs (position + i) item = .ok d := by
  induction items generalizing position ds i with
  | nil =>
    cases h
    cases hd
  | cons item rest ih =>
    obtain ⟨first, hfirst, h⟩ := of_bind_eq_ok h
    obtain ⟨others, hothers, h⟩ := of_bind_eq_ok h
    cases h
    cases i with
    | zero =>
      cases hd
      exact ⟨item, rfl, hfirst⟩
    | succ i =>
      obtain ⟨item', hitem', hdefinition⟩ := ih hothers hd
      refine ⟨item', hitem', ?_⟩
      rwa [show position + (i + 1) = position + 1 + i by omega]

/-- A name that stands at one position only. -/
def OnlyAt (names : List String) (j : Nat) (name : String) : Prop :=
  ∀ k, names[k]? = some name ↔ k = j

/-- Code that may be evaluated at a position among definitions. Every bare name in it is one that
every module has, which no definition hides, or that of a single definition, which stands before the
position; every quoted one is that of a single definition which does not. Each of them is what one of
the references leads to, and what any of them leads to is mentioned, in the order of the
references. -/
structure Evaluable (names : List String) (position : Nat) (refs : List Ref) (code : String) :
    Prop where
  bare : ∀ name, .bare name ∈ mentions code → name ∈ provided ∧ name ∉ names ∨
    name ∉ provided ∧ ∃ j : Nat, j < position ∧ .resolved j ∈ refs ∧ OnlyAt names j name
  quoted : ∀ name, .quoted name ∈ mentions code →
    ∃ j : Nat, position ≤ j ∧ .resolved j ∈ refs ∧ OnlyAt names j name
  covered : ∀ r ∈ refs, ∃ (j : Nat) (name : String), r = .resolved j ∧ OnlyAt names j name ∧
    (j < position → .bare name ∈ mentions code ∧ .quoted name ∉ mentions code) ∧
    (position ≤ j → .quoted name ∈ mentions code ∧ .bare name ∉ mentions code)
  order : List.Forall₂ (fun r x => ∃ (j : Nat) (name : String), r = .resolved j ∧
    OnlyAt names j name ∧ x = if position ≤ j then .quoted name else .bare name)
    refs (own (mentions code))

/-- A name at a position is at that one only, if no name is given twice. -/
theorem onlyAt_of_nodup {names : List String} (h : names.Nodup) {j : Nat} {name : String}
    (hname : names[j]? = some name) : OnlyAt names j name := by
  intro k
  constructor
  · intro hk
    obtain ⟨hlt, _⟩ := List.getElem?_eq_some_iff.mp hk
    exact (List.getElem?_inj hlt h).mp (hk.trans hname.symm)
  · rintro rfl
    exact hname

/-- A related element stands on the left for each on the right. -/
theorem exists_of_forall₂ {α β : Type} {R : α → β → Prop} {as : List α} {bs : List β}
    (h : List.Forall₂ R as bs) {b : β} (hb : b ∈ bs) : ∃ a ∈ as, R a b := by
  induction h with
  | nil => cases hb
  | @cons a b' as bs hab _ ih =>
    rcases List.mem_cons.mp hb with rfl | hb
    · exact ⟨a, List.mem_cons_self, hab⟩
    · obtain ⟨a', ha', hR⟩ := ih hb
      exact ⟨a', List.mem_cons_of_mem _ ha', hR⟩

/-- Code is evaluable if its names that a module must define are what the references lead to. -/
theorem evaluable_of_forall₂ {refs : List Ref} {code : String} (hnodup : m.names.Nodup)
    (hfree : ∀ name ∈ m.names, name ∉ provided)
    (h : List.Forall₂ (MentionedAs m position) refs (own (mentions code))) :
    Evaluable m.names position refs code := by
  have hbare : ∀ name, .bare name ∈ mentions code → name ∈ provided ∧ name ∉ m.names ∨
      name ∉ provided ∧ ∃ j : Nat, j < position ∧ .resolved j ∈ refs ∧ OnlyAt m.names j name := by
    intro name hname
    by_cases hprovided : name ∈ provided
    · exact .inl ⟨hprovided, fun hmem => hfree name hmem hprovided⟩
    · have hown : .bare name ∈ own (mentions code) :=
        List.mem_filter.mpr ⟨hname, by simpa using hprovided⟩
      obtain ⟨r, hr, j, target, rfl, htarget, hmention⟩ := exists_of_forall₂ h hown
      by_cases hle : position ≤ j
      · rw [if_pos hle] at hmention
        cases hmention
      · rw [if_neg hle] at hmention
        cases hmention
        exact .inr ⟨hprovided, j, by omega, hr, onlyAt_of_nodup hnodup htarget⟩
  have hquoted : ∀ name, .quoted name ∈ mentions code →
      ∃ j : Nat, position ≤ j ∧ .resolved j ∈ refs ∧ OnlyAt m.names j name := by
    intro name hname
    have hown : .quoted name ∈ own (mentions code) := List.mem_filter.mpr ⟨hname, rfl⟩
    obtain ⟨r, hr, j, target, rfl, htarget, hmention⟩ := exists_of_forall₂ h hown
    by_cases hle : position ≤ j
    · rw [if_pos hle] at hmention
      cases hmention
      exact ⟨j, hle, hr, onlyAt_of_nodup hnodup htarget⟩
    · rw [if_neg hle] at hmention
      cases hmention
  refine ⟨hbare, hquoted, fun r hr => ?_, h.imp ?_⟩
  · obtain ⟨x, hx, j, name, rfl, hname, rfl⟩ := exists_of_forall₂ h.flip hr
    have hmem := (List.mem_filter.mp hx).1
    have honly := onlyAt_of_nodup hnodup hname
    refine ⟨j, name, rfl, honly, fun hlt => ?_, fun hle => ?_⟩
    · rw [if_neg (by omega)] at hmem
      refine ⟨hmem, fun hname' => ?_⟩
      obtain ⟨k, hk, _, hk'⟩ := hquoted name hname'
      have := (hk' j).mp hname
      omega
    · rw [if_pos hle] at hmem
      refine ⟨hmem, fun hname' => ?_⟩
      rcases hbare name hname' with ⟨_, hnot⟩ | ⟨_, k, hk, _, hk'⟩
      · exact hnot (List.mem_of_getElem? hname)
      · have := (hk' j).mp hname
        omega
  · rintro r x ⟨j, name, hr, hname, hx⟩
    exact ⟨j, name, hr, onlyAt_of_nodup hnodup hname, hx⟩

/-- The names of a model are identifiers, and none is one that every module has. -/
theorem usable_of_plainlyNamed (hindexed : m.Indexed) (hplain : m.PlainlyNamed) :
    ∀ name ∈ m.names, Name.IsIdentifier name ∧ name ∉ provided := by
  intro name hname
  have hsafe := hindexed.safe name hname
  obtain ⟨target, htarget, rfl⟩ := List.mem_map.mp hname
  have hproper := hplain.items target htarget
  exact ⟨hproper.plain.isIdentifier hsafe, not_mem_provided hproper hsafe.free⟩

/-- All names of an expression are identifiers. -/
theorem isIdentifier_of_mentioned {refs : List Ref}
    (hnames : ∀ name ∈ m.names, Name.IsIdentifier name ∧ name ∉ provided)
    (h : List.Forall₂ (MentionedAs m position) refs (own e.mentioned)) :
    ∀ x ∈ e.mentioned, Name.IsIdentifier x.name := by
  intro x hx
  rcases mem_own_or_provided hx with hown | ⟨name, hname, rfl⟩
  · obtain ⟨r, _, j, name, _, hname, rfl⟩ := exists_of_forall₂ h hown
    have hidentifier := (hnames name (List.mem_of_getElem? hname)).1
    split
    · exact hidentifier
    · exact hidentifier
  · exact isIdentifier_of_mem_provided hname

/-- The definitions of a module, with the items that they are made for. -/
theorem definitions_of_ofModel {emitDocs : Bool} {b : Bindings} (h : ofModel m emitDocs = .ok b) :
    definitionsFrom m emitDocs 0 m.definitions = .ok b.definitions := by
  rw [ofModel] at h
  split at h
  · cases h
  · obtain ⟨definitions, hdefinitions, h⟩ := of_bind_eq_ok h
    obtain ⟨methods, _, h⟩ := of_bind_eq_ok h
    cases h
    exact hdefinitions

/-- A definition has the name of its item, and the body that is made for it. -/
theorem exists_bodyOf {emitDocs : Bool} {b : Bindings} (h : ofModel m emitDocs = .ok b) {i : Nat}
    {d : Definition} (hd : b.definitions[i]? = some d) :
    ∃ item, m.definitions[i]? = some item ∧ d.name = item.generatedName ∧
      bodyOf m emitDocs i item = .ok d.body := by
  obtain ⟨item, hitem, hdefinition⟩ :=
    definitionOf_of_definitionsFrom (definitions_of_ofModel h) hd
  rw [Nat.zero_add, definitionOf] at hdefinition
  cases hbody : bodyOf m emitDocs i item with
  | error problem =>
    rw [hbody] at hdefinition
    cases hdefinition
  | ok body =>
    rw [hbody] at hdefinition
    cases hdefinition
    exact ⟨item, hitem, rfl, hbody⟩

/-- An item of a closed model refers to items. -/
theorem grounds_of_closed (hclosed : m.Closed) {i : Nat} (hitem : m.definitions[i]? = some item) :
    ∀ r ∈ item.shape.refs, Grounds m r :=
  fun r hr => hclosed.resolved r (Model.refs_shape_subset (List.mem_of_getElem? hitem) hr)

/-- **What the definitions of a module evaluate is evaluable**, if the model stands on its own and
its names are distinct and proper. -/
theorem evaluable_of_ofModel {emitDocs : Bool} {b : Bindings} (h : ofModel m emitDocs = .ok b)
    (hclosed : m.Closed) (hindexed : m.Indexed) (hplain : m.PlainlyNamed) {i : Nat}
    {d : Definition} (hd : b.definitions[i]? = some d) (he : d.body.evaluated? = some e) :
    ∃ item, m.definitions[i]? = some item ∧ d.name = item.generatedName ∧
      Evaluable (b.definitions.map (·.name)) i item.shape.refs e.text := by
  obtain ⟨item, hitem, hname, hbody⟩ := exists_bodyOf h hd
  have hnames := usable_of_plainlyNamed hindexed hplain
  have hfree : ∀ name ∈ m.names, name ∉ provided := fun name hname => (hnames name hname).2
  have hforall := forall₂_bodyOf hfree (grounds_of_closed hclosed hitem) hbody he
  -- the text is read name by name, since all of its names are identifiers
  rw [← TypeExpr.mentions_text (isIdentifier_of_mentioned hnames hforall)] at hforall
  have hsame : b.definitions.map (·.name) = m.names :=
    names_definitionsFrom (definitions_of_ofModel h)
  refine ⟨item, hitem, hname, ?_⟩
  rw [hsame]
  exact evaluable_of_forall₂ hindexed.nodup hfree hforall

/-- The expressions that a module evaluates, by position. -/
def expressions (b : Bindings) : List (Option String) :=
  b.definitions.map fun d => d.body.evaluated?.map TypeExpr.text

theorem exists_of_expressions {b : Bindings} {i : Nat} {code : String}
    (h : b.expressions[i]? = some (some code)) :
    ∃ d e, b.definitions[i]? = some d ∧ d.body.evaluated? = some e ∧ e.text = code := by
  rw [expressions, List.getElem?_map] at h
  obtain ⟨d, hd, h⟩ := Option.map_eq_some_iff.mp h
  obtain ⟨e, he, h⟩ := Option.map_eq_some_iff.mp h
  exact ⟨d, e, hd, he, h⟩

end Bindings

namespace Conversion

open Bindings

/-- **A rendered module mentions nothing too early.** Whatever model a conversion returns, the
expression of each synonym, wrapper and union mentions bare only names that every module has, which
no definition hides, and the names of definitions that stand before it, each of which is that of a
single definition and what the model refers to; what the model refers to at the same position or a
later one is mentioned in quotes only. -/
theorem evaluable_of_run {document : Document} {options : ConversionOptions}
    {docs : Option Docs.Fetcher} {m : Model} {emitDocs : Bool} {b : Bindings}
    (hrun : (run document options docs).1 = .ok m) (hrender : ofModel m emitDocs = .ok b)
    {i : Nat} {d : Definition} {e : TypeExpr} (hd : b.definitions[i]? = some d)
    (he : d.body.evaluated? = some e) :
    (d.name ++ " = " ++ e.text ∈ d.lines ∨
      "class " ++ d.name ++ "(RootModel[" ++ e.text ++ "]):" ∈ d.lines) ∧
    ∃ item, m.definitions[i]? = some item ∧ d.name = item.generatedName ∧
      Evaluable (b.definitions.map (·.name)) i item.shape.refs e.text := by
  obtain ⟨p, hpending, hfinish⟩ := finished_of_run hrun
  have hclosed := hpending.closed_of_finish_eq hfinish
  exact ⟨evaluated_mem_lines he, evaluable_of_ofModel hrender hclosed (indexed_of_run hrun)
    (plainlyNamed_of_run hrun) hd he⟩

/-- What a document is rendered to, read off in one piece: it is converted, and its model rendered. -/
theorem exists_rendered {α : Type} {document : Document} {options : ConversionOptions}
    {docs : Option Docs.Fetcher} {emitDocs : Bool} {f : Bindings → α} {a : α}
    (h : ((run document options docs).1.toOption.bind fun m =>
      (ofModel m emitDocs).toOption.map f) = some a) :
    ∃ m b, (run document options docs).1 = .ok m ∧ ofModel m emitDocs = .ok b ∧ f b = a := by
  have hread : ∀ {β : Type} {x : Except Failure β} {b : β}, x.toOption = some b → x = .ok b := by
    intro β x b hx
    cases x with
    | error e => cases hx
    | ok b' => exact congrArg Except.ok (Option.some.inj hx)
  obtain ⟨m, hm, h⟩ := Option.bind_eq_some_iff.mp h
  obtain ⟨b, hb, hfb⟩ := Option.map_eq_some_iff.mp h
  exact ⟨m, b, hread hm, hread hb, hfb⟩

/-- A document with a union of what comes before and what comes after it, a list of itself and a
wrapper. -/
def forestDocument : Document :=
  let refer (path : String) : Document := .object [(.text "$ref", .text path)]
  .object
    [(.text "components", .object
      [(.text "schemas", .object
        [(.text "Leaf", .object [(.text "type", .text "string")]),
          (.text "Shape", .object
            [(.text "oneOf", .array
              [refer "#/components/schemas/Leaf", refer "#/components/schemas/Tree"])]),
          (.text "Tree", .object
            [(.text "type", .text "array"), (.text "items", refer "#/components/schemas/Tree")]),
          (.text "Forest", .object
            [(.text "type", .text "array"), (.text "items", refer "#/components/schemas/Tree"),
              (.text "x-newtype", .bool true)])])])]

/-- In the module for it, what comes later is quoted, and the list quotes itself. -/
theorem evaluable_forestDocument :
    ∃ m b, (run forestDocument {} none).1 = .ok m ∧ ofModel m true = .ok b ∧
      b.expressions =
        [some "str", some "Union[Leaf, \"Tree\"]", some "List[\"Tree\"]", some "List[Tree]"] ∧
      ∀ i code, b.expressions[i]? = some (some code) → ∃ item, m.definitions[i]? = some item ∧
        Evaluable (b.definitions.map (·.name)) i item.shape.refs code := by
  have hrendered : ((run forestDocument {} none).1.toOption.bind fun m =>
      (ofModel m true).toOption.map expressions) =
        some [some "str", some "Union[Leaf, \"Tree\"]", some "List[\"Tree\"]",
          some "List[Tree]"] := by
    decide +kernel
  obtain ⟨m, b, hrun, hrender, hexpressions⟩ := exists_rendered hrendered
  refine ⟨m, b, hrun, hrender, hexpressions, fun i code hcode => ?_⟩
  obtain ⟨d, e, hd, he, rfl⟩ := exists_of_expressions hcode
  obtain ⟨_, item, hitem, _, hevaluable⟩ := evaluable_of_run hrun hrender hd he
  exact ⟨item, hitem, hevaluable⟩

end Conversion

end TypedApi
