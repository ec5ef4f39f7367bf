import TypedApi.Proofs.Bindings.Comments
import TypedApi.Proofs.Document.Json.Written
/-!
Literals of texts.

A text stands in a generated module between double quotes. It is read by a small
part of the lexical rules for such modules: a literal closes with the quotes that
open it, one or three; a backslash begins one of the escapes that a module uses;
every other character of a source file is itself.

The literal of a property or of a variant is written by the escapes of JSON. These
name UTF-16 units, and JSON takes two halves of a pair for one character. In a
module each half is a character of its own, so a text with a character above the
basic plane comes back with two characters in its place, and only such a text does.
-/

set_option autoImplicit false

namespace TypedApi

namespace Bindings

open Text (lt_of_mem_units16 ne_quote_of_letterEscape? unitChar_of_halfUnit? unitChar_toNat)

/-! ## Reading -/

/-- The character that a letter stands for after a backslash. -/
def letter? : Char → Option Char
  | '\\' => some '\\'
  | '"' => some '"'
  | 'n' => some '\n'
  | 'r' => some '\r'
  | 't' => some '\t'
  | 'b' => some '\x08'
  | 'f' => some '\x0c'
  | _ => none

/-- Whether a source file can hold a character: neither the null character nor half a pair. -/
def isSource (c : Char) : Bool :=
  c ≠ '\x00' && (Text.halfUnit? c).isNone

/-- Whether a character stands for itself in a literal, one that may go on over several lines or
one that may not. A carriage return is none: a source file is read without them. -/
def isItself (long : Bool) (c : Char) : Bool :=
  c ≠ '\\' && c ≠ '\r' && isSource c && (long || c ≠ '\n')

/-- What a reader answers, with a character in front of the value. -/
def Found.before (c : Char) (found : List Char × List Char) : List Char × List Char :=
  (c :: found.1, found.2)

/-- Whether what stands after a quote makes it the first of the closing quotes. -/
def closes (long : Bool) (rest : List Char) : Bool :=
  !long || ['"', '"'].isPrefixOf rest

/-- A literal after its opening quotes: its value and what stands after its closing quotes. -/
def literalFrom (long : Bool) : List Char → Option (List Char × List Char)
  | '\\' :: 'u' :: a :: b :: c :: d :: rest =>
    (Document.Json.unit? [a, b, c, d]).bind fun u =>
      (literalFrom long rest).map (Found.before (Text.unitChar u.1))
  | '\\' :: letter :: rest =>
    (letter? letter).bind fun c => (literalFrom long rest).map (Found.before c)
  | c :: rest =>
    if c = '"' && closes long rest then some ([], if long then rest.drop 2 else rest)
    else if isItself long c then (literalFrom long rest).map (Found.before c)
    else none
  | [] => none

/-- A literal at the front of a text: its value and what stands after it. -/
def literal? : List Char → Option (List Char × List Char)
  | '"' :: '"' :: '"' :: rest => literalFrom true rest
  | '"' :: rest => literalFrom false rest
  | _ => none

variable {long : Bool} {c : Char} {rest : List Char}

@[simp] theorem literalFrom_nil : literalFrom long [] = none := by
  simp [literalFrom]

/-- A letter with a backslash before it. -/
theorem literalFrom_letter {e : Char} (h : letter? c = some e) :
    literalFrom long ('\\' :: c :: rest) = (literalFrom long rest).map (Found.before e) := by
  rw [literalFrom, h]
  · rfl
  · rintro _ _ _ _ _ rfl
    cases h

/-- A character that is no backslash. -/
theorem literalFrom_cons (h : c ≠ '\\') :
    literalFrom long (c :: rest) =
      if c = '"' && closes long rest then some ([], if long then rest.drop 2 else rest)
      else if isItself long c then (literalFrom long rest).map (Found.before c)
      else none := by
  rw [literalFrom]
  · intro _ _ _ _ _ hc
    exact absurd hc h
  · intro _ _ hc
    exact absurd hc h

theorem ne_backslash_of_isItself (h : isItself long c = true) : c ≠ '\\' := by
  rintro rfl
  simp [isItself] at h

/-- A character that stands for itself and is no quote. -/
theorem literalFrom_itself (h : isItself long c = true) (hquote : c ≠ '"') :
    literalFrom long (c :: rest) = (literalFrom long rest).map (Found.before c) := by
  simp [literalFrom_cons (ne_backslash_of_isItself h), hquote, h]

/-- A quote that closes. -/
theorem literalFrom_quote (h : closes long rest = true) :
    literalFrom long ('"' :: rest) = some ([], if long then rest.drop 2 else rest) := by
  simp [literalFrom_cons (show '"' ≠ '\\' by decide), h]

/-- A quote that does not close. -/
theorem literalFrom_quote_of_not_closes (h : closes long rest = false) :
    literalFrom long ('"' :: rest) = (literalFrom long rest).map (Found.before '"') := by
  have hlong : long = true := by
    cases long
    · cases h
    · rfl
  subst hlong
  simp [literalFrom_cons (show '"' ≠ '\\' by decide), h, show isItself true '"' = true by decide]

/-! ## Units -/

/-- A unit by its four digits. -/
theorem literalFrom_unit {u : Nat} (h : u < 0x10000) :
    literalFrom long ('\\' :: 'u' :: Text.hex 4 u ++ rest) =
      (literalFrom long rest).map (Found.before (Text.unitChar u)) := by
  have hdigits := Document.Json.unit?_hex h []
  simp only [Text.hex, List.nil_append, List.cons_append] at hdigits ⊢
  rw [literalFrom, hdigits]
  rfl

/-- A character by its units, each half of a pair by its stand-in. -/
def inUnits (c : Char) : List Char :=
  (Text.units16 c).map Text.unitChar

/-- Whether a character is one unit. -/
def IsOneUnit (c : Char) : Prop :=
  c.toNat < 0x10000 ∨ (Text.halfUnit? c).isSome

instance (c : Char) : Decidable (IsOneUnit c) :=
  inferInstanceAs (Decidable (_ ∨ _))

theorem inUnits_of_isOneUnit (h : IsOneUnit c) : inUnits c = [c] := by
  by_cases hc : c.toNat < 0x10000
  · rw [inUnits, Text.units16, if_pos hc, List.map_singleton, unitChar_toNat hc]
  · obtain ⟨u, hu⟩ := Option.isSome_iff_exists.mp (h.resolve_left hc)
    simp [inUnits, Text.units16, hc, hu, unitChar_of_halfUnit? hu]

theorem length_inUnits_of_not (h : ¬IsOneUnit c) : (inUnits c).length = 2 := by
  rw [IsOneUnit, not_or, Bool.not_eq_true, Option.isSome_eq_false_iff, Option.isNone_iff_eq_none]
    at h
  simp [inUnits, Text.units16, h.1, h.2]

/-- **A text by its units is the text** exactly if each of its characters is one unit. -/
theorem flatMap_inUnits_eq_self_iff {cs : List Char} :
    cs.flatMap inUnits = cs ↔ ∀ c ∈ cs, IsOneUnit c := by
  -- a text is not shorter by its units
  have hlength : ∀ cs : List Char, cs.length ≤ (cs.flatMap inUnits).length := by
    intro cs
    induction cs with
    | nil => exact Nat.le_refl 0
    | cons c cs ih =>
      rw [List.flatMap_cons, List.length_append, List.length_cons]
      by_cases hc : IsOneUnit c
      · rw [inUnits_of_isOneUnit hc, List.length_singleton]
        omega
      · rw [length_inUnits_of_not hc]
        omega
  induction cs with
  | nil => simp
  | cons c cs ih =>
    rw [List.flatMap_cons, List.forall_mem_cons]
    by_cases hc : IsOneUnit c
    · rw [inUnits_of_isOneUnit hc, List.singleton_append, List.cons_inj_right, and_iff_right hc]
      exact ih
    · refine iff_of_false (fun heq => ?_) fun h => hc h.1
      have hlonger := congrArg List.length heq
      rw [List.length_append, length_inUnits_of_not hc, List.length_cons] at hlonger
      have := hlength cs
      omega

/-! ## Writing -/

/-- A letter's escape stands for its character. -/
theorem letter?_of_letterEscape? {e : List Char} (h : Text.letterEscape? c = some e) :
    ∃ letter, e = ['\\', letter] ∧ letter? letter = some c := by
  unfold Text.letterEscape? at h
  split at h <;> cases h <;> exact ⟨_, rfl, rfl⟩

/-- A printable character other than quotes and backslashes stands for itself. -/
theorem isItself_of_printable (hslash : c ≠ '\\') (h : 0x20 ≤ c.toNat ∧ c.toNat ≤ 0x7e) :
    isItself long c = true := by
  have hne : ∀ d : Char, d.toNat < 0x20 → c ≠ d := by
    rintro d hd rfl
    omega
  have hhalf : Text.halfUnit? c = none := by
    rw [Text.halfUnit?, Text.halfBase, decide_eq_false (by omega), Bool.false_and,
      if_neg Bool.false_ne_true]
  simp [isItself, isSource, hslash, hhalf, hne '\x00' (by decide), hne '\n' (by decide),
    hne '\r' (by decide)]

/-- What a reader answers, with characters in front of the value. -/
def Found.after (value : List Char) (found : List Char × List Char) : List Char × List Char :=
  (value ++ found.1, found.2)

/-- Units by their digits. -/
theorem literalFrom_units (us : List Nat) (h : ∀ u ∈ us, u < 0x10000) :
    literalFrom long ((us.flatMap fun u => '\\' :: 'u' :: Text.hex 4 u) ++ rest) =
      (literalFrom long rest).map (Found.after (us.map Text.unitChar)) := by
  induction us with
  | nil => cases hfound : literalFrom long rest <;> simp [Found.after, hfound]
  | cons u us ih =>
    rw [List.forall_mem_cons] at h
    rw [List.flatMap_cons, List.append_assoc, literalFrom_unit h.1, ih h.2, Option.map_map]
    rfl

/-- **An escaped character is read back** by its units. -/
theorem literalFrom_escapeAscii :
    literalFrom long (Text.escapeAscii c ++ rest) =
      (literalFrom long rest).map (Found.after (inUnits c)) := by
  have hself : ∀ d : Char, d.toNat < 0x10000 → Found.after (inUnits d) = Found.before d := by
    intro d hd
    rw [inUnits_of_isOneUnit (.inl hd)]
    rfl
  cases hletter : Text.letterEscape? c with
  | some e =>
    obtain ⟨letter, rfl, hread⟩ := letter?_of_letterEscape? hletter
    have hc : c.toNat < 0x10000 := by
      unfold Text.letterEscape? at hletter
      split at hletter <;> first | decide | cases hletter
    rw [Text.escapeAscii, hletter, hself c hc]
    exact literalFrom_letter hread
  | none =>
    obtain ⟨hquote, hslash⟩ := ne_quote_of_letterEscape? hletter
    by_cases hprintable : 0x20 ≤ c.toNat ∧ c.toNat ≤ 0x7e
    · rw [Text.escapeAscii, hletter, hself c (by omega)]
      simp only [hprintable, decide_true, Bool.and_self, if_true]
      exact literalFrom_itself (isItself_of_printable hslash hprintable) hquote
    · have hprintable : (decide (0x20 ≤ c.toNat) && decide (c.toNat ≤ 0x7e)) = false := by
        rw [← Bool.decide_and, decide_eq_false hprintable]
      rw [Text.escapeAscii, hletter]
      simp only [hprintable, Bool.false_eq_true, if_false]
      exact literalFrom_units _ fun u => lt_of_mem_units16

theorem literalFrom_flatMap_escapeAscii (cs : List Char) :
    literalFrom false (cs.flatMap Text.escapeAscii ++ '"' :: rest) =
      some (cs.flatMap inUnits, rest) := by
  induction cs with
  | nil => exact literalFrom_quote rfl
  | cons c cs ih =>
    rw [List.flatMap_cons, List.append_assoc, literalFrom_escapeAscii, ih]
    rfl

/-- A quote that no two quotes follow opens a short literal. -/
theorem literal?_short (h : ¬['"', '"'] <+: rest) :
    literal? ('"' :: rest) = literalFrom false rest := by
  rw [literal?]
  rintro rest' rfl
  exact h ⟨rest', rfl⟩

/-- An escaped character does not begin with a quote. -/
theorem exists_escapeAscii_eq (c : Char) : ∃ d ds, Text.escapeAscii c = d :: ds ∧ d ≠ '"' := by
  unfold Text.escapeAscii
  split
  · rename_i hletter
    obtain ⟨letter, rfl, _⟩ := letter?_of_letterEscape? hletter
    exact ⟨_, _, rfl, by decide⟩
  · rename_i hletter
    split
    · exact ⟨c, [], rfl, (ne_quote_of_letterEscape? hletter).1⟩
    · unfold Text.units16
      split
      · exact ⟨_, _, rfl, by decide⟩
      · split <;> exact ⟨_, _, rfl, by decide⟩

/-- **A text between double quotes is read back** by its units, whatever stands after it. -/
theorem literal?_doubleQuoted (s : String) (h : rest.head? ≠ some '"') :
    literal? ((Text.doubleQuoted s).toList ++ rest) = some (s.toList.flatMap inUnits, rest) := by
  have hopen : ¬['"', '"'] <+: s.toList.flatMap Text.escapeAscii ++ '"' :: rest := by
    rintro ⟨tail, htail⟩
    cases hs : s.toList with
    | nil =>
      rw [hs] at htail
      have htail : '"' :: tail = rest := (List.cons.inj htail).2
      exact h (by rw [← htail]; rfl)
    | cons c cs =>
      obtain ⟨d, ds, hd, hquote⟩ := exists_escapeAscii_eq c
      rw [hs, List.flatMap_cons, hd] at htail
      exact hquote (List.cons.inj htail).1.symm
  rw [Text.doubleQuoted, String.toList_ofList, List.cons_append, List.append_assoc,
    List.singleton_append, literal?_short hopen]
  exact literalFrom_flatMap_escapeAscii s.toList

/-- Such a text alone is read to its end. -/
theorem literal?_doubleQuoted_alone (s : String) :
    literal? (Text.doubleQuoted s).toList = some (s.toList.flatMap inUnits, []) := by
  rw [← List.append_nil (Text.doubleQuoted s).toList]
  exact literal?_doubleQuoted s nofun

/-- Whether a literal is one of a text: it is read to its end, and it is read as that text. -/
def Denotes (literal s : String) : Prop :=
  literal? literal.toList = some (s.toList, [])

instance (literal s : String) : Decidable (Denotes literal s) :=
  inferInstanceAs (Decidable (_ = _))

/-- What is written for a text: it is one literal wherever it stands, it is read as the units of the
text, and it denotes the text exactly if each of its characters is one unit. -/
structure WrittenFor (s literal : String) : Prop where
  read : ∀ rest, rest.head? ≠ some '"' →
    literal? (literal.toList ++ rest) = some (s.toList.flatMap inUnits, rest)
  denotes : Denotes literal s ↔ ∀ c ∈ s.toList, IsOneUnit c

/-- **The literal of a text** between double quotes. -/
theorem writtenFor_doubleQuoted (s : String) : WrittenFor s (Text.doubleQuoted s) where
  read := fun _ => literal?_doubleQuoted s
  denotes := by
    rw [Denotes, literal?_doubleQuoted_alone, Option.some_inj, Prod.mk.injEq, and_iff_left rfl,
      flatMap_inUnits_eq_self_iff]

/-! ## Definitions -/

/-- The texts of an item in its definition. A property that does not give its field the name is
written for its alias, and each text of an enumeration for the value of its member. -/
structure Quotes (item : Item) (d : Definition) : Prop where
  aliases : ∀ docs fields, d.body = .record docs fields →
    (∀ f ∈ fields, f.line ∈ d.lines) ∧ ∃ members, item.shape = .object members ∧
      List.Forall₂ (fun p f => f.name ≠ p.1 → ∃ literal, WrittenFor p.1 literal ∧
        f.initial? = some ((if f.optional then "Field(default=None, alias=" else "Field(alias=") ++
          literal ++ ")")) members fields
  values : ∀ docs members other, d.body = .enumeration docs members other →
    (∀ p ∈ members, ∃ literal, WrittenFor p.2 literal ∧
      "    " ++ p.1 ++ " = " ++ literal ∈ d.lines) ∧
      ∃ variants extensible, item.shape = .stringEnum variants extensible ∧
        members.map Prod.snd = variants

theorem field_line_mem_lines {d : Definition} {docs : Option String} {fields : List Field}
    {f : Field} (hbody : d.body = .record docs fields) (hf : f ∈ fields) : f.line ∈ d.lines := by
  have hne : fields.isEmpty = false := List.isEmpty_eq_false_iff.mpr (List.ne_nil_of_mem hf)
  rw [Definition.lines, hbody]
  refine List.mem_append_right _ ?_
  rw [hne, if_neg Bool.false_ne_true]
  exact List.mem_cons_of_mem _ (List.mem_map_of_mem hf)

theorem member_line_mem_lines {d : Definition} {docs other : Option String} {members : Table String}
    {member : String × String} (hbody : d.body = .enumeration docs members other)
    (hmember : member ∈ members) :
    "    " ++ member.1 ++ " = " ++ Text.doubleQuoted member.2 ∈ d.lines := by
  rw [Definition.lines, hbody]
  refine List.mem_cons_of_mem _ (List.mem_append_left _ (List.mem_append_right _ ?_))
  exact List.mem_map_of_mem (f := fun p : String × String =>
    "    " ++ p.1 ++ " = " ++ Text.doubleQuoted p.2) hmember

/-- The members of an enumeration have its texts. -/
theorem map_snd_membersFrom (taken variants : List String) :
    (membersFrom taken variants).map Prod.snd = variants := by
  induction variants generalizing taken with
  | nil => rfl
  | cons variant rest ih => exact congrArg (variant :: ·) (ih _)

/-- Only an item with texts makes an enumeration, and of these. -/
theorem exists_variants_of_bodyOf {m : Model} {emitDocs : Bool} {position : Nat} {item : Item}
    {docs other : Option String} {members : Table String}
    (h : bodyOf m emitDocs position item = .ok (.enumeration docs members other)) :
    ∃ variants extensible, item.shape = .stringEnum variants extensible ∧
      members.map Prod.snd = variants := by
  rw [bodyOf] at h
  split at h
  · obtain ⟨type, _, h⟩ := of_bind_eq_ok h
    obtain ⟨docs, _, h⟩ := of_bind_eq_ok h
    cases h
  · split at h
    · obtain ⟨fields, _, h⟩ := of_bind_eq_ok h
      obtain ⟨docs, _, h⟩ := of_bind_eq_ok h
      cases h
    · rename_i variants extensible hshape
      obtain ⟨docs, _, h⟩ := of_bind_eq_ok h
      cases h
      exact ⟨variants, extensible, hshape, map_snd_membersFrom _ variants⟩
    · obtain ⟨alternatives, _, h⟩ := of_bind_eq_ok h
      obtain ⟨docs, _, h⟩ := of_bind_eq_ok h
      cases h
    · obtain ⟨type, _, h⟩ := of_bind_eq_ok h
      obtain ⟨docs, _, h⟩ := of_bind_eq_ok h
      cases h

/-- **The texts of an item** are written in its definition. -/
theorem quotes_definitionOf {m : Model} {emitDocs : Bool} {position : Nat} {item : Item}
    {d : Definition} (h : definitionOf m emitDocs position item = .ok d) : Quotes item d where
  aliases := by
    intro docs fields hbody
    obtain ⟨_, members, hshape, hfor⟩ := (definitionFor_definitionOf h).fields docs fields hbody
    refine ⟨fun f => field_line_mem_lines hbody, members, hshape, hfor.imp fun p f hp hname => ?_⟩
    exact ⟨_, writtenFor_doubleQuoted p.1, hp.other hname⟩
  values := by
    intro docs members other hbody
    refine ⟨fun p hp => ⟨_, writtenFor_doubleQuoted p.2, member_line_mem_lines hbody hp⟩, ?_⟩
    rw [definitionOf] at h
    cases hmade : bodyOf m emitDocs position item with
    | error problem =>
      rw [hmade] at h
      cases h
    | ok body =>
      rw [hmade] at h
      cases h
      subst hbody
      exact exists_variants_of_bodyOf hmade

/-- **The literals of a module.** Every text is written as one literal, which is read back by the
units of the text, and denotes the text exactly if none of its characters is above the basic plane.
Each alias of a field is written so for its property, and each value of a member for its text. -/
theorem literals_of_ofModel {m : Model} {emitDocs : Bool} {b : Bindings}
    (h : ofModel m emitDocs = .ok b) :
    (∀ s, WrittenFor s (Text.doubleQuoted s)) ∧
      ∀ (i : Nat) (d : Definition), b.definitions[i]? = some d →
        (∃ before after, b.text = before ++ "\n\n" ++ d.text ++ after) ∧
        ∃ item, m.definitions[i]? = some item ∧ Quotes item d := by
  refine ⟨writtenFor_doubleQuoted, fun i d hd => ⟨exists_text_eq (List.mem_of_getElem? hd), ?_⟩⟩
  obtain ⟨item, hitem, hdefinition⟩ :=
    definitionOf_of_definitionsFrom (definitions_of_ofModel h) hd
  exact ⟨item, hitem, quotes_definitionOf hdefinition⟩

/-- A character above the basic plane is written as two units and read as two characters. -/
theorem not_denotes_paired :
    Text.doubleQuoted "😀" = "\"\\ud83d\\ude00\"" ∧
      literal? (Text.doubleQuoted "😀").toList =
        some ([Text.unitChar 0xd83d, Text.unitChar 0xde00], []) ∧
      ¬Denotes (Text.doubleQuoted "😀") "😀" := by
  decide +kernel

end Bindings

namespace Conversion

open Bindings

/-- A document with a record of one property and an enumeration of one text. -/
def labelledDocument (property variant : String) : Document :=
  .object
    [(.text "components", .object
      [(.text "schemas", .object
        [(.text "Reading", .object
          [(.text "type", .text "object"),
            (.text "properties", .object
              [(.text property, .object [(.text "type", .text "integer")])])]),
          (.text "Unit", .object
            [(.text "type", .text "string"), (.text "enum", .array [.text variant])])])])]

/-- An alias with a quote in it and a text with a character that is not ASCII denote what the
document has. -/
theorem labelledDocument_literals :
    ∃ m b, (run (labelledDocument "a \"b\"" "°C") {} none).1 = .ok m ∧ ofModel m true = .ok b ∧
      Denotes "\"a \\\"b\\\"\"" "a \"b\"" ∧ Denotes "\"\\u00b0C\"" "°C" ∧
      b.definitions.map Definition.lines =
        [["AB = int"],
          ["class Reading(BaseModel):", "    model_config = ConfigDict(populate_by_name=True)", "",
            "    a_b: Optional[AB] = Field(default=None, alias=\"a \\\"b\\\"\")"],
          ["class Unit(str, Enum):", "    C = \"\\u00b0C\""]] ∧
      ∀ (i : Nat) (d : Definition), b.definitions[i]? = some d →
        ∃ item, m.definitions[i]? = some item ∧ Quotes item d := by
  have hrendered : ((run (labelledDocument "a \"b\"" "°C") {} none).1.toOption.bind
      fun m => (ofModel m true).toOption.map fun b => b.definitions.map Definition.lines) =
        some [["AB = int"],
          ["class Reading(BaseModel):", "    model_config = ConfigDict(populate_by_name=True)", "",
            "    a_b: Optional[AB] = Field(default=None, alias=\"a \\\"b\\\"\")"],
          ["class Unit(str, Enum):", "    C = \"\\u00b0C\""]] := by
    decide +kernel
  obtain ⟨m, b, hrun, hrender, hlines⟩ := exists_rendered hrendered
  obtain ⟨hwritten, hquotes⟩ := literals_of_ofModel hrender
  refine ⟨m, b, hrun, hrender, ?_, ?_, hlines, fun i d hd => (hquotes i d hd).2⟩
  · exact (hwritten "a \"b\"").denotes.mpr (by simp [IsOneUnit])
  · exact (hwritten "°C").denotes.mpr (by simp [IsOneUnit])

end Conversion

end TypedApi
