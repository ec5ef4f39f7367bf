import TypedApi.Proofs.Bindings.Keys
import Mathlib.Data.Nat.Find
/-!
Enumerations of texts.

The members of an enumeration are named for its texts one after the other, and an
extensible one has a member for all other texts besides. That member is named
before the texts are: its name is free of the texts and of the words made of them,
and it is never reserved, so neither escaping a text nor counting its name up leads
to it. The name is found: with every underscore that is put after the word one more
name is given up, and there are only so many to give up.

A text is decoded to the first member that has it for its value. The value is
written as a literal, so what counts is what the literal is read as: a text with a
character above the basic plane is not the value of its own member, and ends up at
the member for all other texts.
-/

set_option autoImplicit false

namespace TypedApi

namespace Bindings

/-! ## The member for all other texts -/

/-- A name with some underscores after it. -/
def underscored (name : String) (n : Nat) : String :=
  name ++ String.ofList (List.replicate n '_')

@[simp] theorem toList_underscored (name : String) (n : Nat) :
    (underscored name n).toList = name.toList ++ List.replicate n '_' := by
  simp [underscored]

theorem underscored_zero (name : String) : underscored name 0 = name := by
  simp [← String.toList_inj]

theorem underscored_append (name : String) (n : Nat) :
    underscored (name ++ "_") n = underscored name (n + 1) := by
  simp [← String.toList_inj, List.replicate_succ]

/-- Two counts of underscores after one name give two names. -/
theorem underscored_injective (name : String) : Function.Injective (underscored name) := by
  intro n k h
  have hlength := congrArg (fun s : String => s.toList.length) h
  simpa using hlength

/-- **One of the counts of underscores makes a name free**, since there are more of them than names
to avoid. The least one that does is no larger than the number of these names. -/
theorem exists_underscored_notMem (avoid : List String) (name : String) :
    ∃ n ≤ avoid.length, underscored name n ∉ avoid ∧ ∀ k < n, underscored name k ∈ avoid := by
  classical
  have hexists : ∃ n, n ≤ avoid.length ∧ underscored name n ∉ avoid := by
    by_contra hnone
    push Not at hnone
    have hnodup : ((List.range (avoid.length + 1)).map (underscored name)).Nodup :=
      List.nodup_range.map (underscored_injective name)
    have hsubset : (List.range (avoid.length + 1)).map (underscored name) ⊆ avoid := by
      intro other hother
      obtain ⟨k, hk, rfl⟩ := List.mem_map.mp hother
      exact hnone k (Nat.lt_succ_iff.mp (List.mem_range.mp hk))
    have hlength := (hnodup.subperm hsubset).length_le
    rw [List.length_map, List.length_range] at hlength
    omega
  obtain ⟨hle, hfree⟩ := Nat.find_spec hexists
  refine ⟨Nat.find hexists, hle, hfree, fun k hk => ?_⟩
  by_contra hnot
  exact Nat.find_min hexists hk ⟨by omega, hnot⟩

/-- **The search ends with the least count**, with any fuel that lasts so far. -/
theorem freeOther_eq {avoid : List String} {name : String} {n fuel : Nat} (hn : n ≤ fuel)
    (hfree : underscored name n ∉ avoid) (htaken : ∀ k < n, underscored name k ∈ avoid) :
    Shape.freeOther avoid name fuel = underscored name n := by
  induction n generalizing name fuel with
  | zero =>
    rw [underscored_zero] at hfree ⊢
    cases fuel with
    | zero => rfl
    | succ fuel =>
      rw [Shape.freeOther, if_neg]
      rwa [List.contains_iff_mem]
  | succ n ih =>
    obtain ⟨fuel, rfl⟩ := Nat.exists_eq_succ_of_ne_zero (by omega : fuel ≠ 0)
    have hfirst := htaken 0 (Nat.succ_pos n)
    rw [underscored_zero] at hfirst
    rw [Shape.freeOther, if_pos (List.contains_iff_mem.mpr hfirst), ← underscored_append]
    refine ih (by omega) ?_ fun k hk => ?_
    · rwa [underscored_append]
    · rw [underscored_append]
      exact htaken (k + 1) (by omega)

/-- The names that the member for all other texts avoids: the texts and the words made of them. -/
def avoided (variants : List String) : List String :=
  variants ++ variants.map Name.upperCamel

/-- The name of the member for all other texts: the search for it ends, and it is neither one of the
texts nor what is made of one by words or by escaping. -/
structure CatchAllFor (variants : List String) (other : String) : Prop where
  found : ∃ n ≤ 2 * variants.length, other = underscored "Other" n ∧
    (∀ k < n, underscored "Other" k ∈ avoided variants) ∧
    ∀ fuel, n ≤ fuel → Shape.freeOther (avoided variants) "Other" fuel = other
  text : other ∉ variants
  names : ∀ v ∈ variants, other ≠ Name.upperCamel v ∧ other ≠ Name.escape v ∧
    other ≠ Name.escape (Name.upperCamel v) ∧ other ≠ memberName v

/-- Escaping leads to the word with underscores from itself alone. -/
theorem eq_of_escape_eq_underscored {name : String} {n : Nat}
    (h : Name.escape name = underscored "Other" n) : name = underscored "Other" n := by
  unfold Name.escape at h
  split at h
  · have hlist := congrArg String.toList h
    simp at hlist
  · rename_i c rest hname
    extract_lets started at h
    split at h
    · rename_i hreserved
      -- the word without its last underscore is not reserved
      have hlist := congrArg String.toList h
      rw [String.toList_append, toList_underscored] at hlist
      cases n with
      | zero =>
        have hlast := congrArg List.getLast? hlist
        simp at hlast
      | succ n =>
        rw [List.replicate_succ', ← List.append_assoc] at hlist
        have hstarted := List.append_inj_left' hlist rfl
        rw [(usable_other hstarted).2] at hreserved
        cases hreserved
    · -- nor does it begin with an underscore
      simp only [started] at h
      split at h
      · have hlist := congrArg String.toList h
        simp at hlist
      · exact h

/-- **The name of the member for all other texts.** -/
theorem catchAllFor_otherVariant? {variants : List String} {extensible : Bool} {other : String}
    (h : (Shape.stringEnum variants extensible).otherVariant? = some other) :
    CatchAllFor variants other := by
  have hother : Shape.freeOther (avoided variants) "Other" (avoided variants).length = other := by
    cases extensible with
    | false => cases h
    | true => exact Option.some.inj h
  obtain ⟨n, hn, hfree, htaken⟩ := exists_underscored_notMem (avoided variants) "Other"
  have heq := freeOther_eq hn hfree htaken
  rw [hother] at heq
  subst heq
  have hlength : (avoided variants).length = 2 * variants.length := by
    rw [avoided, List.length_append, List.length_map]
    omega
  obtain ⟨htext, hwords⟩ := not_or.mp (fun h => hfree (List.mem_append.mpr h))
  refine ⟨⟨n, hlength ▸ hn, rfl, htaken, fun fuel hfuel => freeOther_eq hfuel hfree htaken⟩, htext,
    fun v hv => ?_⟩
  have hcamel : underscored "Other" n ≠ Name.upperCamel v := by
    intro heq
    exact hwords (heq ▸ List.mem_map_of_mem hv)
  have hescaped : underscored "Other" n ≠ Name.escape (Name.upperCamel v) := by
    intro heq
    exact hcamel (eq_of_escape_eq_underscored heq.symm).symm
  refine ⟨hcamel, fun heq => ?_, hescaped, fun heq => ?_⟩
  · exact htext ((eq_of_escape_eq_underscored heq.symm) ▸ hv)
  · rw [memberName, orIfEmpty] at heq
    split at heq
    · have hlist := congrArg String.toList (eq_of_escape_eq_underscored heq.symm)
      simp at hlist
    · exact hescaped heq

/-! ## Decoding -/

/-- What the members of an enumeration are assigned, in order: the literals of the texts, and after
them that of the member for all other texts. -/
def Definition.assignments (d : Definition) : Table String :=
  match d.body with
  | .enumeration _ members other =>
    members.map (fun p => (p.1, Text.doubleQuoted p.2)) ++
      other.toList.map fun o => (o, Text.doubleQuoted o)
  | _ => []

/-- The member for all other texts. -/
def Definition.catchAll? (d : Definition) : Option String :=
  match d.body with
  | .enumeration _ _ other => other
  | _ => none

/-- The member that a text is decoded to: the first that is assigned a literal of the text, and
otherwise the one for all other texts. -/
def Definition.decode? (d : Definition) (text : String) : Option String :=
  ((d.assignments.find? fun p => Denotes p.2 text).map Prod.fst).or d.catchAll?

/-- The line of an assignment. -/
def assignmentLine (p : String × String) : String :=
  "    " ++ p.1 ++ " = " ++ p.2

/-- An enumeration that tells its texts apart: each is decoded to its own member, and every other
text to the member for all other texts, or to none. -/
structure Definition.Faithful (d : Definition) (members : Table String) : Prop where
  own : ∀ p ∈ members, d.decode? p.2 = some p.1
  others : ∀ text ∉ members.map Prod.snd, d.decode? text = d.catchAll?

theorem denotes_doubleQuoted_iff {s text : String} :
    Denotes (Text.doubleQuoted s) text ↔ keyOf s = text.toList := by
  rw [Denotes, literal?_doubleQuoted_alone, Option.some_inj, Prod.mk.injEq, and_iff_left rfl]
  rfl

/-- No literal of a text is one of a text with a character above the basic plane. -/
theorem isOneUnit_of_denotes {s text : String} (h : Denotes (Text.doubleQuoted s) text) :
    ∀ c ∈ text.toList, IsOneUnit c := by
  intro c hc
  rw [← denotes_doubleQuoted_iff.mp h] at hc
  exact isOneUnit_of_mem_keyOf hc

/-- What is found is the one element that can be found. -/
theorem find?_eq_some_of_unique {α : Type} {found : α → Bool} {l : List α} {a : α} (ha : a ∈ l)
    (hfound : found a = true) (hunique : ∀ b ∈ l, found b = true → b = a) :
    l.find? found = some a := by
  cases h : l.find? found with
  | none => exact absurd hfound (List.find?_eq_none.mp h a ha)
  | some b => rw [hunique b (List.mem_of_find?_eq_some h) (List.find?_some h)]

section Decoding

variable {d : Definition} {docs other : Option String} {members : Table String}

theorem assignments_of_body (hbody : d.body = .enumeration docs members other) :
    d.assignments = members.map (fun p => (p.1, Text.doubleQuoted p.2)) ++
      other.toList.map fun o => (o, Text.doubleQuoted o) := by
  rw [Definition.assignments, hbody]

theorem catchAll?_of_body (hbody : d.body = .enumeration docs members other) :
    d.catchAll? = other := by
  rw [Definition.catchAll?, hbody]

/-- The lines of an enumeration: what stands above its members, these, and what the member for all
other texts takes. -/
theorem exists_lines_eq (hbody : d.body = .enumeration docs members other) :
    ∃ head, d.lines = head ++
      (members.map (fun p => assignmentLine (p.1, Text.doubleQuoted p.2)) ++
        (other.map (otherLines d.name)).getD []) := by
  have hunder : ∃ head, enumerationLines d.name docs members other = head ++
      (members.map (fun p => assignmentLine (p.1, Text.doubleQuoted p.2)) ++
        (other.map (otherLines d.name)).getD []) :=
    ⟨_, List.append_assoc _ _ _⟩
  obtain ⟨head, hhead⟩ := hunder
  rw [Definition.lines, hbody]
  exact ⟨("class " ++ d.name ++ "(str, Enum):") :: head, congrArg (List.cons _) hhead⟩

/-- The assignments are written one after the other. -/
theorem assignmentLines_infix (hbody : d.body = .enumeration docs members other) :
    d.assignments.map assignmentLine <:+: d.lines := by
  obtain ⟨head, hlines⟩ := exists_lines_eq hbody
  rw [hlines, assignments_of_body hbody, List.map_append, List.map_map]
  refine ((List.prefix_append_right_inj _).mpr ?_).isInfix.trans (List.suffix_append head _).isInfix
  cases other with
  | none => exact List.nil_prefix
  | some o => exact List.prefix_append [assignmentLine (o, Text.doubleQuoted o)] _

/-- What the member for all other texts takes is written last. -/
theorem otherLines_suffix {o : String} (hbody : d.body = .enumeration docs members (some o)) :
    otherLines d.name o <:+ d.lines := by
  obtain ⟨head, hlines⟩ := exists_lines_eq hbody
  rw [hlines]
  exact (List.suffix_append _ _).trans (List.suffix_append _ _)

/-- A text is decoded among the members first: the literal of the member for all other texts changes
nothing, since it leads where all other texts go. -/
theorem decode?_of_body (hbody : d.body = .enumeration docs members other) (text : String) :
    d.decode? text =
      ((members.find? fun p => Denotes (Text.doubleQuoted p.2) text).map Prod.fst).or other := by
  rw [Definition.decode?, assignments_of_body hbody, catchAll?_of_body hbody, List.find?_append,
    List.find?_map, Option.map_or, Option.or_assoc, Option.map_map]
  congr 1
  cases other with
  | none => rfl
  | some o =>
    rw [Option.toList_some, List.map_singleton, List.find?_singleton]
    split <;> rfl

/-- A text with a character above the basic plane is decoded to no member of its own. -/
theorem decode?_eq_of_not_isOneUnit (hbody : d.body = .enumeration docs members other)
    {text : String} (h : ¬∀ c ∈ text.toList, IsOneUnit c) : d.decode? text = other := by
  have hnone : (members.find? fun p => Denotes (Text.doubleQuoted p.2) text) = none := by
    refine List.find?_eq_none.mpr fun p _ hp => h ?_
    exact isOneUnit_of_denotes (of_decide_eq_true hp)
  rw [decode?_of_body hbody, hnone]
  rfl

/-- **An enumeration tells its texts apart exactly if none of them has a character above the basic
plane.** -/
theorem faithful_iff (hbody : d.body = .enumeration docs members other)
    (hnames : (other.toList ++ members.keys).Nodup) (hvalues : (members.map Prod.snd).Nodup) :
    d.Faithful members ↔ ∀ v ∈ members.map Prod.snd, ∀ c ∈ v.toList, IsOneUnit c := by
  constructor
  · intro h v hv
    obtain ⟨p, hp, rfl⟩ := List.mem_map.mp hv
    by_contra hpaired
    have hown := h.own p hp
    rw [decode?_eq_of_not_isOneUnit hbody hpaired] at hown
    -- the member for all other texts has a name of its own
    refine List.disjoint_of_nodup_append hnames ?_ (List.mem_map_of_mem hp)
    rw [hown]
    exact List.mem_singleton_self p.1
  · intro h
    have hdenotes : ∀ p ∈ members, ∀ text, Denotes (Text.doubleQuoted p.2) text ↔ p.2 = text := by
      intro p hp text
      have hself : keyOf p.2 = p.2.toList :=
        flatMap_inUnits_eq_self_iff.mpr (h p.2 (List.mem_map_of_mem hp))
      rw [denotes_doubleQuoted_iff, hself, String.toList_inj]
    constructor
    · intro p hp
      have hfound : (members.find? fun q => Denotes (Text.doubleQuoted q.2) p.2) = some p := by
        refine find?_eq_some_of_unique hp (decide_eq_true ((hdenotes p hp p.2).mpr rfl)) ?_
        intro q hq hqp
        exact List.inj_on_of_nodup_map hvalues hq hp ((hdenotes q hq p.2).mp (of_decide_eq_true hqp))
      rw [decode?_of_body hbody, hfound]
      rfl
    · intro text htext
      have hnone : (members.find? fun q => Denotes (Text.doubleQuoted q.2) text) = none := by
        refine List.find?_eq_none.mpr fun q hq hqtext => htext ?_
        rw [← (hdenotes q hq text).mp (of_decide_eq_true hqtext)]
        exact List.mem_map_of_mem hq
      rw [decode?_of_body hbody, hnone, catchAll?_of_body hbody]
      rfl

end Decoding

/-! ## Enumerations of a module -/

/-- An enumeration for some texts: its members have them for their values, in order and each under a
name of its own; there is a member for all other texts exactly if there may be others, and the
literal that is its value is read as none of the texts. The texts are told apart unless one has a
character above the basic plane, which is decoded like all other texts. -/
structure EnumerationFor (variants : List String) (extensible : Bool) (d : Definition)
    (members : Table String) (other : Option String) : Prop where
  values : members.map Prod.snd = variants
  lines : d.assignments.map assignmentLine <:+: d.lines
  names : (other.toList ++ members.keys).Nodup
  isSome_other : other.isSome = extensible
  catchAll : ∀ o, other = some o → CatchAllFor variants o ∧ otherLines d.name o <:+ d.lines ∧
    Denotes (Text.doubleQuoted o) o ∧ ∀ v ∈ variants, ¬Denotes (Text.doubleQuoted v) o
  faithful_iff : d.Faithful members ↔ ∀ v ∈ variants, ∀ c ∈ v.toList, IsOneUnit c
  lost : ∀ p ∈ members, (¬∀ c ∈ p.2.toList, IsOneUnit c) → d.decode? p.2 = other

/-- The body for an item with texts. -/
theorem exists_enumeration_of_bodyOf {m : Model} {emitDocs : Bool} {position : Nat} {item : Item}
    {body : Body} {variants : List String} {extensible : Bool}
    (h : bodyOf m emitDocs position item = .ok body)
    (hshape : item.shape = .stringEnum variants extensible) :
    ∃ docs, body = .enumeration docs (membersFrom item.shape.otherVariant?.toList variants)
      item.shape.otherVariant? := by
  rw [bodyOf, hshape] at h
  split at h
  · -- such an item has no type to wrap
    obtain ⟨type, htype, _⟩ := of_bind_eq_ok h
    rw [TypeExpr.ofItem, hshape] at htype
    cases htype
  · obtain ⟨docs, _, h⟩ := of_bind_eq_ok h
    cases h
    exact ⟨docs, by rw [hshape]⟩

/-- There is one definition for each item. -/
theorem exists_definition_of_ofModel {m : Model} {emitDocs : Bool} {b : Bindings}
    (h : ofModel m emitDocs = .ok b) {i : Nat} {item : Item} (hitem : m.definitions[i]? = some item) :
    ∃ d, b.definitions[i]? = some d ∧ d.name = item.generatedName ∧
      bodyOf m emitDocs i item = .ok d.body := by
  have hlength := (forall₂_definitionsFrom (definitions_of_ofModel h)).length_eq
  obtain ⟨hi, _⟩ := List.getElem?_eq_some_iff.mp hitem
  obtain ⟨d, hd⟩ : ∃ d, b.definitions[i]? = some d :=
    ⟨_, List.getElem?_eq_getElem (hlength ▸ hi)⟩
  obtain ⟨item', hitem', hname, hbody⟩ := exists_bodyOf h hd
  cases hitem.symm.trans hitem'
  exact ⟨d, hd, hname, hbody⟩

/-- The definition that has the members for some texts is the enumeration for these. -/
theorem enumerationFor_membersFrom {d : Definition} {docs : Option String} {variants : List String}
    {extensible : Bool}
    (hbody : d.body = .enumeration docs
      (membersFrom (Shape.stringEnum variants extensible).otherVariant?.toList variants)
      (Shape.stringEnum variants extensible).otherVariant?)
    (hnodup : variants.Nodup) :
    EnumerationFor variants extensible d
      (membersFrom (Shape.stringEnum variants extensible).otherVariant?.toList variants)
      (Shape.stringEnum variants extensible).otherVariant? := by
  generalize hother : (Shape.stringEnum variants extensible).otherVariant? = other at hbody ⊢
  have hvalues := map_snd_membersFrom other.toList variants
  have hnames : (other.toList ++ (membersFrom other.toList variants).keys).Nodup := by
    refine ((allotted_membersFrom other.toList variants).scope ?_).nodup
    rw [← hother]
    exact scope_otherVariant? _
  refine ⟨hvalues, assignmentLines_infix hbody, hnames, ?_, ?_, ?_, ?_⟩
  · rw [← hother]
    cases extensible <;> rfl
  · rintro o rfl
    have hcatch := catchAllFor_otherVariant? hother
    obtain ⟨n, hn⟩ := exists_otherVariant?_eq hother
    have hkey := keyOf_eq_iff_of_plain (plain_other hn)
    refine ⟨hcatch, otherLines_suffix hbody, ?_, fun v hv hdenotes => ?_⟩
    · exact denotes_doubleQuoted_iff.mpr ((hkey o).mpr rfl)
    · rw [denotes_doubleQuoted_iff, hkey] at hdenotes
      exact hcatch.text (hdenotes ▸ hv)
  · have hiff := faithful_iff hbody hnames (by rwa [hvalues])
    rwa [hvalues] at hiff
  · exact fun p _ => decode?_eq_of_not_isOneUnit hbody

/-- **The enumerations of a module.** Every item with texts that are all different has an
enumeration for them. -/
theorem enumerationFor_of_ofModel {m : Model} {emitDocs : Bool} {b : Bindings}
    (h : ofModel m emitDocs = .ok b) {i : Nat} {item : Item} {variants : List String}
    {extensible : Bool} (hitem : m.definitions[i]? = some item)
    (hshape : item.shape = .stringEnum variants extensible) (hnodup : variants.Nodup) :
    ∃ d docs members other, b.definitions[i]? = some d ∧ d.name = item.generatedName ∧
      d.body = .enumeration docs members other ∧
      EnumerationFor variants extensible d members other := by
  obtain ⟨d, hd, hname, hmade⟩ := exists_definition_of_ofModel h hitem
  obtain ⟨docs, hbody⟩ := exists_enumeration_of_bodyOf hmade hshape
  rw [hshape] at hbody
  exact ⟨d, docs, _, _, hd, hname, hbody, enumerationFor_membersFrom hbody hnodup⟩

end Bindings

namespace Conversion

open Bindings

/-- A document with an extensible enumeration of some texts. -/
def moodDocument (variants : List String) : Document :=
  .object
    [(.text "components", .object
      [(.text "schemas", .object
        [(.text "Mood", .object
          [(.text "type", .text "string"),
            (.text "x-extensible-enum", .array (variants.map .text))])])])]

/-- The members of an enumeration, with the one for all other texts. -/
def enumeration? (d : Definition) : Option (Table String × Option String) :=
  match d.body with
  | .enumeration _ members other => some (members, other)
  | _ => none

theorem exists_body_of_enumeration? {d : Definition} {members : Table String}
    {other : Option String} (h : enumeration? d = some (members, other)) :
    ∃ docs, d.body = .enumeration docs members other := by
  unfold enumeration? at h
  split at h
  · rename_i docs members' other' hbody
    cases h
    exact ⟨docs, hbody⟩
  · cases h

/-- The shapes of the items that a document is converted to. -/
def shapes? (document : Document) : Option (List Shape) :=
  (run document {} none).1.toOption.map fun m => m.definitions.map (·.shape)

theorem exists_item_of_shapes? {document : Document} {m : Model} {shapes : List Shape} {i : Nat}
    {shape : Shape} (h : shapes? document = some shapes)
    (hrun : (run document {} none).1 = .ok m) (hshape : shapes[i]? = some shape) :
    ∃ item, m.definitions[i]? = some item ∧ item.shape = shape := by
  rw [shapes?, hrun] at h
  have hshapes : m.definitions.map (·.shape) = shapes := Option.some.inj h
  rw [← hshapes, List.getElem?_map] at hshape
  exact Option.map_eq_some_iff.mp hshape

/-- The word for all other texts is given to a text here, so it gets an underscore itself; all the
same each text is decoded to its own member. -/
theorem moodDocument_faithful :
    ∃ m b d members, (run (moodDocument ["other", "Other", ""]) {} none).1 = .ok m ∧
      ofModel m true = .ok b ∧ b.definitions[0]? = some d ∧
      members = [("Other", "other"), ("Other1", "Other"), ("Empty", "")] ∧
      EnumerationFor ["other", "Other", ""] true d members (some "Other_") ∧
      d.Faithful members ∧ d.decode? "calm" = some "Other_" := by
  have hrendered : ((run (moodDocument ["other", "Other", ""]) {} none).1.toOption.bind fun m =>
      (ofModel m true).toOption.map fun b => b.definitions.map enumeration?) =
        some [some ([("Other", "other"), ("Other1", "Other"), ("Empty", "")], some "Other_")] := by
    decide +kernel
  have hshapes : shapes? (moodDocument ["other", "Other", ""]) =
      some [.stringEnum ["other", "Other", ""] true] := by
    decide +kernel
  obtain ⟨m, b, hrun, hrender, hmembers⟩ := exists_rendered hrendered
  obtain ⟨item, hitem, hshape⟩ : ∃ item, m.definitions[0]? = some item ∧
      item.shape = .stringEnum ["other", "Other", ""] true :=
    exists_item_of_shapes? hshapes hrun rfl
  obtain ⟨d, docs, members, other, hd, _, hbody, hfor⟩ :=
    enumerationFor_of_ofModel hrender hitem hshape (by decide)
  have hget := congrArg (·[0]?) hmembers
  rw [List.getElem?_map, hd, Option.map_some, List.getElem?_cons_zero, Option.some_inj] at hget
  obtain ⟨docs', hbody'⟩ := exists_body_of_enumeration? hget
  cases hbody.symm.trans hbody'
  have hplain : ∀ v ∈ ["other", "Other", ""], ∀ c ∈ v.toList, IsOneUnit c := by
    simp [IsOneUnit]
  have hfaithful := hfor.faithful_iff.mpr hplain
  refine ⟨m, b, d, _, hrun, hrender, hd, rfl, hfor, hfaithful, ?_⟩
  rw [hfaithful.others "calm" (by decide), catchAll?_of_body hbody]

/-- A text with a character above the basic plane is decoded as if it were none of the texts. -/
theorem moodDocument_lost :
    ∃ m b, (run (moodDocument ["😀"]) {} none).1 = .ok m ∧ ofModel m true = .ok b ∧
      (b.definitions.map fun d => (d.decode? "😀", d.lines)) =
        [(some "Other",
          ["class Mood(str, Enum):", "    Empty = \"\\ud83d\\ude00\"", "    Other = \"Other\"", "",
            "    @classmethod", "    def _missing_(cls, value: object) -> Mood:",
            "        return cls.Other"])] := by
  refine exists_rendered ?_
  decide +kernel

end Conversion

end TypedApi
