import TypedApi.Proofs.Bindings.Evaluated
import TypedApi.Proofs.Bindings.Lines
/-!
Comments above the definitions of a module.

Above a synonym stands the documentation of the item, and above a union its tags
as well, all in comment lines. The documentation is cut into its lines before it is
written, and each of them becomes a comment. The field that tells the alternatives
of a union apart and their tags are written as the document has them: where one of
them has a line end, the text goes on at the start of a line, and that is a comment
only if it begins with a number sign. So whether everything before a definition is
a comment depends on these labels, and on nothing else that the document says.
-/

set_option autoImplicit false

namespace TypedApi

namespace Bindings

open Text

/-! ## Comment lines -/

/-- A line that is a comment. -/
def IsComment (line : List Char) : Prop :=
  line.head? = some '#'

instance (line : List Char) : Decidable (IsComment line) :=
  inferInstanceAs (Decidable (line.head? = some '#'))

/-- A comment keeps its number sign where blank characters are dropped at the end. -/
theorem isComment_stripRight (cs : List Char) : IsComment (stripRight ('#' :: cs)) := by
  have hsign : isBlank '#' = false := by decide
  rw [IsComment, stripRight, List.reverse_cons, List.dropWhile_append]
  split
  · rw [List.dropWhile_cons_of_neg (by rw [hsign]; exact Bool.false_ne_true)]
    rfl
  · rw [List.reverse_append]
    rfl

theorem unbroken_stripRight {cs : List Char} (h : Unbroken cs) : Unbroken (stripRight cs) := by
  intro c hc
  have hmem := (List.dropWhile_suffix _).subset (List.mem_reverse.mp hc)
  exact h c (List.mem_reverse.mp hmem)

/-- **Documentation is written in comment lines**, however it is broken into lines. -/
theorem isComment_of_mem_commentLines {text line : String} (h : line ∈ commentLines text) :
    IsComment line.toList ∧ Unbroken line.toList := by
  obtain ⟨cs, hcs, rfl⟩ := List.mem_map.mp h
  have hcs : Unbroken cs := unbroken_of_mem_linesFrom unbroken_nil hcs
  rw [String.toList_ofList]
  exact ⟨isComment_stripRight _, unbroken_stripRight ((hcs.cons (by decide)).cons (by decide))⟩

/-- A byte is shown without a line end. -/
theorem unbroken_escapeByte {quote : Char} (h : quote ∈ ['"', '\'']) (b : UInt8) :
    Unbroken (escapeByte quote b) := by
  have hall : ∀ n < 256, Unbroken (escapeByte '"' (UInt8.ofNat n)) ∧
      Unbroken (escapeByte '\'' (UInt8.ofNat n)) := by
    decide +kernel
  obtain ⟨hdouble, hsingle⟩ := hall b.toNat b.toNat_lt
  rw [UInt8.ofNat_toNat] at hdouble hsingle
  rcases List.mem_cons.mp h with rfl | h
  · exact hdouble
  · rwa [List.mem_singleton.mp h]

theorem isComment_of_mem_byteCommentLines {bs : List UInt8} {line : String}
    (h : line ∈ byteCommentLines bs) : IsComment line.toList ∧ Unbroken line.toList := by
  obtain ⟨run, _, rfl⟩ := List.mem_map.mp h
  have hquote : shownQuote (run.map fun b => Char.ofNat b.toNat) ∈ ['"', '\''] := by
    unfold shownQuote
    split
    · exact List.mem_cons_self
    · exact List.mem_cons_of_mem _ List.mem_cons_self
  have hends : Unbroken ['"', '\''] := by decide
  have hbytes : ∀ quote ∈ ['"', '\''], Unbroken (run.flatMap (escapeByte quote)) := by
    intro quote hquote c hc
    obtain ⟨b, _, hc⟩ := List.mem_flatMap.mp hc
    exact unbroken_escapeByte hquote b c hc
  have hend := unbroken_nil.cons (hends _ hquote)
  rw [String.toList_append]
  refine ⟨rfl, Unbroken.append (by decide) ?_⟩
  rw [shownBytes, String.toList_ofList]
  exact (((hbytes _ hquote).append hend).cons (hends _ hquote)).cons (by decide)

/-- **The documentation of an item is written in comment lines.** -/
theorem isComment_of_mem_comments {emitDocs : Bool} {docs : Document} {ls : List String}
    (h : comments emitDocs docs = .ok ls) {line : String} (hline : line ∈ ls) :
    IsComment line.toList ∧ Unbroken line.toList := by
  unfold comments at h
  split at h
  · split at h
    · cases h
      exact isComment_of_mem_commentLines hline
    · cases h
      exact isComment_of_mem_byteCommentLines hline
    · cases h
  · cases h
    cases hline

end Bindings

/-! ## Expressions -/

namespace TypeExpr

open Text Bindings Reading

theorem unbroken_of_isNameChar {c : Char} (h : Reading.isNameChar c = true) :
    isLineEnd c = false := by
  have hall : ∀ n < 128, Reading.isNameChar (Char.ofNat n) = true →
      isLineEnd (Char.ofNat n) = false := by
    decide
  exact Name.forall_ascii (p := fun d => Reading.isNameChar d = true → isLineEnd d = false) hall
    (Reading.toNat_lt_of_isNameChar h) h

theorem unbroken_of_isIdentifier {name : String} (h : Name.IsIdentifier name) :
    Unbroken name.toList :=
  fun c hc => unbroken_of_isNameChar (Reading.isNameChar_iff.mpr (h.plain c hc))

theorem unbroken_toString (n : Nat) : Unbroken (toString n).toList :=
  fun _ hc => unbroken_of_isNameChar (Reading.of_isNumeric (Name.isNumeric_of_mem_toString hc)).2

theorem unbroken_endText (bound : Option Int) : Unbroken (Scalar.endText bound).toList := by
  cases bound with
  | none => decide
  | some n =>
    cases n with
    | ofNat k => exact unbroken_toString k
    | negSucc k =>
      rw [toList_endText_negSucc]
      exact (unbroken_toString (k + 1)).cons (by decide)

theorem unbroken_doubleQuoted {name : String} (h : Name.IsIdentifier name) :
    Unbroken (Text.doubleQuoted name).toList := by
  have hchars : ∀ c ∈ name.toList, Reading.isNameChar c = true :=
    fun c hc => Reading.isNameChar_iff.mpr (h.plain c hc)
  rw [Text.doubleQuoted, String.toList_ofList, Reading.flatMap_escapeAscii hchars]
  exact ((unbroken_of_isIdentifier h).append (by decide)).cons (by decide)

mutual
/-- An expression whose names are identifiers is written without a line end. -/
theorem unbroken_text (e : TypeExpr) (h : ∀ x ∈ e.mentioned, Name.IsIdentifier x.name) :
    Unbroken e.text.toList := by
  cases e with
  | builtin name => exact unbroken_of_isIdentifier (h _ List.mem_cons_self)
  | defined name => exact unbroken_of_isIdentifier (h _ List.mem_cons_self)
  | quoted name => exact unbroken_doubleQuoted (h _ List.mem_cons_self)
  | within low high =>
    rw [text_within, String.toList_append, String.toList_append, String.toList_append,
      String.toList_append]
    have hfront : Unbroken "Annotated[int, Field(ge=".toList := by decide
    have hmiddle : Unbroken ", le=".toList := by decide
    exact (((hfront.append (unbroken_endText low)).append hmiddle).append
      (unbroken_endText high)).append (by decide)
  | applied head arguments =>
    have hhead := unbroken_of_isIdentifier (h _ List.mem_cons_self)
    have harguments := unbroken_texts arguments fun x hx => h x (List.mem_cons_of_mem _ hx)
    rw [text_applied, String.toList_append, String.toList_append, String.toList_append]
    exact ((hhead.append (by decide)).append harguments).append (by decide)

theorem unbroken_texts (es : List TypeExpr) (h : ∀ x ∈ allMentioned es, Name.IsIdentifier x.name) :
    Unbroken (", ".intercalate (texts es)).toList := by
  cases es with
  | nil => exact unbroken_nil
  | cons e rest =>
    rw [allMentioned] at h
    have hfirst := unbroken_text e fun x hx => h x (List.mem_append_left _ hx)
    have hothers := unbroken_texts rest fun x hx => h x (List.mem_append_right _ hx)
    cases rest with
    | nil => simpa [texts] using hfirst
    | cons second rest =>
      rw [texts, texts, String.intercalate_cons_cons, String.toList_append, String.toList_append]
      exact (hfirst.append (by decide)).append hothers
end

end TypeExpr

/-! ## Labels -/

/-- The labels of a union, which are written above it as the document has them: the field that tells
the alternatives apart, and their tags. -/
def Shape.labels : Shape → List String
  | .oneOf discriminant variants =>
    (Operation.given? discriminant).toList ++
      variants.filterMap fun v => Operation.given? v.mappingName
  | _ => []

namespace Bindings

open Text

/-- The labels of a definition, each with what stands after it on its line. -/
def Body.labels : Body → List (String × String)
  | .union _ discriminant alternatives _ =>
    (Operation.given? discriminant).toList.map (fun d => (d, "\" property.")) ++
      alternatives.filterMap fun a =>
        (Operation.given? a.tag).map fun tag => (tag, "): " ++ a.type.text)
  | _ => []

/-- A label that does not leave the comment it stands in: every line that it goes on to is one. -/
def Contained (label after : String) : Prop :=
  ∀ line ∈ (Text.lines (label.toList ++ after.toList ++ ['\n'])).tail, IsComment line

/-- The lines above a name that is given to an expression, and the expression. -/
def Body.assigned? : Body → Option (List String × TypeExpr)
  | .synonym comments type => some (comments, type)
  | .union comments discriminant alternatives type =>
    some (unionHead comments discriminant alternatives, type)
  | _ => none

/-- A definition as it is written. -/
def Definition.text (d : Definition) : String :=
  String.join (d.lines.map (· ++ "\n"))

/-- A definition with nothing but comments above its last line. -/
def Commented (d : Definition) : Prop :=
  ∀ line ∈ (Text.lines d.text.toList).dropLast, IsComment line

/-- A line that is written as a comment, whatever it holds. -/
def Safely (line : String) : Prop :=
  ∀ piece ∈ Text.lines (line.toList ++ ['\n']), IsComment piece

theorem safely_of_unbroken {line : String} (h : IsComment line.toList ∧ Unbroken line.toList) :
    Safely line := by
  intro piece hpiece
  rw [lines_unbroken h.2] at hpiece
  rw [List.mem_singleton.mp hpiece]
  exact h.1

/-- **A label without a line end is contained.** -/
theorem contained_of_unbroken {label after : String} (h : Unbroken label.toList)
    (hafter : Unbroken after.toList) : Contained label after := by
  intro line hline
  rw [lines_unbroken (h.append hafter)] at hline
  cases hline

/-- A line with a label is written as a comment exactly if the label is contained. -/
theorem safely_iff_contained {before label after : String} (hcomment : IsComment before.toList)
    (hbefore : Unbroken before.toList) :
    Safely (before ++ label ++ after) ↔ Contained label after := by
  have hne : label.toList ++ after.toList ++ ['\n'] ≠ [] := by simp
  obtain ⟨first, others, hothers, hall⟩ := exists_lines_append hbefore hne
  have hfirst : IsComment (before.toList ++ first) := by
    rw [IsComment, List.head?_append, hcomment]
    rfl
  have hlines : Text.lines ((before ++ label ++ after).toList ++ ['\n']) =
      (before.toList ++ first) :: others := by
    rw [← hall]
    simp [List.append_assoc]
  rw [Safely, hlines, Contained, hothers, List.forall_mem_cons]
  exact and_iff_right hfirst

/-! ## Definitions -/

/-- An alternative whose name and type have no line end. -/
def Alternative.IsPlain (a : Alternative) : Prop :=
  Unbroken a.name.toList ∧ Unbroken a.type.text.toList

/-- An alternative is listed in a comment exactly if its tag is contained. -/
theorem safely_alternative {a : Alternative} (h : a.IsPlain) :
    Safely a.line ↔ ∀ tag, Operation.given? a.tag = some tag →
      Contained tag ("): " ++ a.type.text) := by
  have hname : Unbroken ("#   " ++ a.name).toList := by
    rw [String.toList_append]
    exact Unbroken.append (by decide) h.1
  have hsign : ∀ after : String, IsComment ("#   " ++ a.name ++ after).toList := by
    intro after
    rw [String.toList_append, String.toList_append]
    rfl
  rw [Alternative.line]
  split
  · rename_i tag htag
    have hline : "#   " ++ a.name ++ " (" ++ tag ++ "): " ++ a.type.text =
        ("#   " ++ a.name ++ " (") ++ tag ++ ("): " ++ a.type.text) := by
      rw [String.append_assoc]
    have hbefore : Unbroken ("#   " ++ a.name ++ " (").toList := by
      rw [String.toList_append]
      exact hname.append (by decide)
    rw [hline, safely_iff_contained (hsign " (") hbefore, htag]
    simp
  · rename_i htag
    have hline : "#   " ++ a.name ++ ": " ++ a.type.text =
        "#   " ++ a.name ++ (": " ++ a.type.text) := by
      rw [String.append_assoc]
    refine iff_of_true (safely_of_unbroken ?_) ?_
    · have hafter : Unbroken (": " ++ a.type.text).toList := by
        rw [String.toList_append]
        exact Unbroken.append (by decide) h.2
      rw [hline]
      refine ⟨hsign _, ?_⟩
      rw [String.toList_append]
      exact hname.append hafter
    · intro tag hgiven
      rw [htag] at hgiven
      cases hgiven

/-- **The lines above a union** are comments exactly if its labels are contained. -/
theorem safely_unionHead {ls : List String} {discriminant : Option String}
    {alternatives : List Alternative} {type : TypeExpr}
    (hcomments : ∀ line ∈ ls, IsComment line.toList ∧ Unbroken line.toList)
    (hplain : ∀ a ∈ alternatives, a.IsPlain) :
    (∀ line ∈ unionHead ls discriminant alternatives, Safely line) ↔
      ∀ p ∈ (Body.union ls discriminant alternatives type).labels, Contained p.1 p.2 := by
  have hdiscriminant : ∀ d : String, Safely ("# Tagged by the \"" ++ d ++ "\" property.") ↔
      Contained d "\" property." :=
    fun d => safely_iff_contained rfl (by decide)
  have hwritten : ∀ line ∈ ls, Safely line := fun line hline =>
    safely_of_unbroken (hcomments line hline)
  have htagged : (∀ line ∈ alternatives.map Alternative.line, Safely line) ↔
      ∀ p ∈ alternatives.filterMap (fun a =>
        (Operation.given? a.tag).map fun tag => (tag, "): " ++ a.type.text)),
        Contained p.1 p.2 := by
    simp only [List.forall_mem_map, List.mem_filterMap, Option.map_eq_some_iff]
    constructor
    · rintro h p ⟨a, ha, tag, htag, rfl⟩
      exact (safely_alternative (hplain a ha)).mp (h a ha) tag htag
    · intro h a ha
      exact (safely_alternative (hplain a ha)).mpr fun tag htag =>
        h (tag, "): " ++ a.type.text) ⟨a, ha, tag, htag, rfl⟩
  rw [unionHead, Body.labels, List.forall_mem_append, List.forall_mem_append, List.forall_mem_append,
    htagged, and_iff_right hwritten, List.forall_mem_map, List.forall_mem_map]
  exact and_congr_left' (forall₂_congr fun d _ => hdiscriminant d)

variable {m : Model} {position : Nat} {item : Item} {e : TypeExpr} {heads : List String}

/-- An alternative has the tag of its variant, and it is plain, since it is named by identifiers. -/
theorem isPlain_alternativeOf {v : Variant} {alternative : Alternative × TypeExpr}
    (hnames : ∀ name ∈ m.names, Name.IsIdentifier name) (hv : v.Presentable)
    (hr : Grounds m v.definition) (h : alternativeOf m position v = .ok alternative) :
    alternative.1.IsPlain ∧ alternative.1.tag = v.mappingName := by
  obtain ⟨name, hname, hidentifier, _⟩ := hv.named
  obtain ⟨j, target, _, htarget, hlabel, _⟩ := exists_ofRef hr
  obtain ⟨shown, hshown, h⟩ := of_bind_eq_ok h
  obtain ⟨written, _, h⟩ := of_bind_eq_ok h
  obtain ⟨type, htype, h⟩ := of_bind_eq_ok h
  rw [Variant.displayName, hname] at hshown
  rw [hlabel] at htype
  cases hshown
  cases htype
  cases h
  exact ⟨⟨TypeExpr.unbroken_of_isIdentifier hidentifier,
    TypeExpr.unbroken_of_isIdentifier (hnames target (List.mem_of_getElem? htarget))⟩, rfl⟩

theorem isPlain_alternatives {variants : List Variant} {alternatives : List (Alternative × TypeExpr)}
    (hnames : ∀ name ∈ m.names, Name.IsIdentifier name) (hvariants : ∀ v ∈ variants, v.Presentable)
    (hrefs : ∀ v ∈ variants, Grounds m v.definition)
    (h : variants.mapM (alternativeOf m position) = .ok alternatives) :
    (∀ a ∈ alternatives.map Prod.fst, a.IsPlain) ∧
      (alternatives.map Prod.fst).map Alternative.tag = variants.map Variant.mappingName := by
  have hall := forall₂_of_mapM h
  clear h
  induction hall with
  | nil => exact ⟨fun _ ha => absurd ha List.not_mem_nil, rfl⟩
  | @cons v a variants alternatives hv _ ih =>
    rw [List.forall_mem_cons] at hvariants hrefs
    obtain ⟨hplain, htag⟩ := isPlain_alternativeOf hnames hvariants.1 hrefs.1 hv
    obtain ⟨hothers, htags⟩ := ih hvariants.2 hrefs.2
    refine ⟨List.forall_mem_cons.mpr ⟨hplain, hothers⟩, ?_⟩
    rw [List.map_cons, List.map_cons, List.map_cons, htag, htags]

/-- The labels of a union are those of its shape. -/
theorem labels_union {discriminant : Option String} {variants : List Variant}
    {alternatives : List Alternative} {ls : List String} {type : TypeExpr}
    (h : alternatives.map Alternative.tag = variants.map Variant.mappingName) :
    (Body.union ls discriminant alternatives type).labels.map Prod.fst =
      (Shape.oneOf discriminant variants).labels := by
  have htags : alternatives.filterMap (fun a => Operation.given? a.tag) =
      variants.filterMap fun v => Operation.given? v.mappingName := by
    have hgiven := congrArg (List.filterMap Operation.given?) h
    rwa [List.filterMap_map, List.filterMap_map] at hgiven
  rw [Body.labels, Shape.labels, ← htags, List.map_append, List.map_map, List.map_filterMap]
  simp only [Function.comp_def, Option.map_map, Option.map_id', List.map_id']

/-- What stands after the labels of a union has no line end. -/
theorem unbroken_of_mem_labels {discriminant : Option String} {alternatives : List Alternative}
    {ls : List String} {type : TypeExpr} (hplain : ∀ a ∈ alternatives, a.IsPlain) :
    ∀ p ∈ (Body.union ls discriminant alternatives type).labels, Unbroken p.2.toList := by
  intro p hp
  rcases List.mem_append.mp hp with hp | hp
  · obtain ⟨d, _, rfl⟩ := List.mem_map.mp hp
    exact (by decide : Unbroken "\" property.".toList)
  · obtain ⟨a, ha, hp⟩ := List.mem_filterMap.mp hp
    obtain ⟨tag, _, rfl⟩ := Option.map_eq_some_iff.mp hp
    rw [String.toList_append]
    exact Unbroken.append (by decide) (hplain a ha).2

/-- **The lines above an expression** are comments exactly if the labels of the item are contained,
and no other item than a union has labels. -/
theorem safely_bodyOf {emitDocs : Bool} {body : Body}
    (hnames : ∀ name ∈ m.names, Name.IsIdentifier name)
    (hvariants : ∀ v ∈ item.shape.variants, v.Presentable)
    (hrefs : ∀ r ∈ item.shape.refs, Grounds m r) (h : bodyOf m emitDocs position item = .ok body)
    (ha : body.assigned? = some (heads, e)) :
    body.labels.map Prod.fst = item.shape.labels ∧ (∀ p ∈ body.labels, Unbroken p.2.toList) ∧
      ((∀ line ∈ heads, Safely line) ↔ ∀ p ∈ body.labels, Contained p.1 p.2) := by
  rw [bodyOf] at h
  split at h
  · obtain ⟨type, _, h⟩ := of_bind_eq_ok h
    obtain ⟨docs, _, h⟩ := of_bind_eq_ok h
    cases h
    cases ha
  · split at h
    · obtain ⟨fields, _, h⟩ := of_bind_eq_ok h
      obtain ⟨docs, _, h⟩ := of_bind_eq_ok h
      cases h
      cases ha
    · obtain ⟨docs, _, h⟩ := of_bind_eq_ok h
      cases h
      cases ha
    · rename_i discriminant variants hshape
      obtain ⟨alternatives, halternatives, h⟩ := of_bind_eq_ok h
      obtain ⟨ls, hls, h⟩ := of_bind_eq_ok h
      cases h
      cases ha
      rw [hshape] at hvariants hrefs ⊢
      obtain ⟨hplain, htags⟩ := isPlain_alternatives hnames hvariants
        (fun v hv => hrefs _ (List.mem_map_of_mem hv)) halternatives
      exact ⟨labels_union htags, unbroken_of_mem_labels hplain,
        safely_unionHead (fun line hline => isComment_of_mem_comments hls hline) hplain⟩
    · rename_i hunion
      obtain ⟨type, _, h⟩ := of_bind_eq_ok h
      obtain ⟨ls, hls, h⟩ := of_bind_eq_ok h
      cases h
      cases ha
      refine ⟨?_, List.forall_mem_nil _,
        iff_of_true (fun line hline => ?_) (List.forall_mem_nil _)⟩
      · cases hshape : item.shape with
        | oneOf discriminant variants => exact (hunion _ _ hshape).elim
        | _ => rfl
      · exact safely_of_unbroken (isComment_of_mem_comments hls hline)

/-! ## Texts -/

/-- An expression that a definition gives its name to is one that it evaluates. -/
theorem evaluated_of_assigned {body : Body} (h : body.assigned? = some (heads, e)) :
    body.evaluated? = some e := by
  cases body with
  | synonym | union =>
    cases h
    rfl
  | wrapper | record | enumeration => cases h

theorem lines_of_assigned {d : Definition} (h : d.body.assigned? = some (heads, e)) :
    d.lines = heads ++ [d.name ++ " = " ++ e.text] := by
  obtain ⟨name, body⟩ := d
  cases body with
  | synonym | union =>
    cases h
    rfl
  | wrapper | record | enumeration => cases h

/-- The lines of a definition as it is written: those above the expression, and one with it. -/
theorem lines_text {d : Definition} (h : d.body.assigned? = some (heads, e))
    (hname : Name.IsIdentifier d.name) (he : Unbroken e.text.toList) :
    Text.lines d.text.toList = heads.flatMap (fun line => Text.lines (line.toList ++ ['\n'])) ++
      [(d.name ++ " = " ++ e.text).toList] := by
  have hlast : Unbroken (d.name ++ " = " ++ e.text).toList := by
    rw [String.toList_append, String.toList_append]
    exact ((TypeExpr.unbroken_of_isIdentifier hname).append (by decide)).append he
  rw [Definition.text, lines_of_assigned h, lines_join, List.flatMap_append, List.flatMap_singleton,
    lines_unbroken hlast]

/-- A definition has nothing but comments above its last line exactly if all that is written there is
safe. -/
theorem commented_iff_safely {d : Definition} (h : d.body.assigned? = some (heads, e))
    (hname : Name.IsIdentifier d.name) (he : Unbroken e.text.toList) :
    Commented d ↔ ∀ line ∈ heads, Safely line := by
  rw [Commented, lines_text h hname he, List.dropLast_concat]
  simp only [List.mem_flatMap, Safely]
  constructor
  · exact fun hall line hline piece hpiece => hall piece ⟨line, hline, hpiece⟩
  · rintro hall piece ⟨line, hline, hpiece⟩
    exact hall line hline piece hpiece

/-- A definition stands in the text of its module, below two empty lines. -/
theorem exists_text_eq {b : Bindings} {d : Definition} (h : d ∈ b.definitions) :
    ∃ before after, b.text = before ++ "\n\n" ++ d.text ++ after := by
  obtain ⟨earlier, later, hsplit⟩ := List.append_of_mem h
  have hjoin : ∀ as bs : List String, String.join (as ++ bs) = String.join as ++ String.join bs := by
    intro as bs
    rw [← String.toList_inj]
    simp [String.toList_join]
  refine ⟨String.join ((preamble ++ earlier.flatMap fun d => "" :: "" :: d.lines).map (· ++ "\n")),
    String.join (((later.flatMap fun d => "" :: "" :: d.lines) ++
      "" :: "" :: b.interfaceLines).map (· ++ "\n")), ?_⟩
  have hlines : b.lines = (preamble ++ earlier.flatMap fun d => "" :: "" :: d.lines) ++ ["", ""] ++
      d.lines ++ ((later.flatMap fun d => "" :: "" :: d.lines) ++ "" :: "" :: b.interfaceLines) := by
    rw [lines, hsplit, List.flatMap_append, List.flatMap_cons]
    simp only [List.append_assoc, List.cons_append, List.nil_append]
  rw [text, hlines, Definition.text, List.map_append, List.map_append, List.map_append, hjoin, hjoin,
    hjoin]
  rfl

/-- What is given a name in a module, with the lines above it and its labels. -/
def headings (b : Bindings) : List (Option (List String) × List String) :=
  b.definitions.map fun d => (d.body.assigned?.map Prod.fst, d.body.labels.map Prod.fst)

end Bindings

namespace Conversion

open Bindings

/-- **Above a synonym or a union stands nothing but comments, if no label breaks out of its own.**
Whatever model a conversion returns, the text of the definition ends with the line that gives the
expression its name. All lines before it are comments exactly if every line that a label goes on to
is one, and so they are if no label has a line end; the documentation may have any. The labels are
those of the item: the field that tells alternatives apart, and the tags of the alternatives. -/
theorem commented_iff_of_run {document : Document} {options : ConversionOptions}
    {docs : Option Docs.Fetcher} {m : Model} {emitDocs : Bool} {b : Bindings}
    (hrun : (run document options docs).1 = .ok m) (hrender : ofModel m emitDocs = .ok b)
    {i : Nat} {d : Definition} {heads : List String} {e : TypeExpr}
    (hd : b.definitions[i]? = some d) (ha : d.body.assigned? = some (heads, e)) :
    (∃ before after, b.text = before ++ "\n\n" ++ d.text ++ after) ∧
    (Text.lines d.text.toList).getLast? = some (d.name ++ " = " ++ e.text).toList ∧
    (Commented d ↔ ∀ p ∈ d.body.labels, Contained p.1 p.2) ∧
    ∃ item, m.definitions[i]? = some item ∧ d.name = item.generatedName ∧
      d.body.labels.map Prod.fst = item.shape.labels ∧
      ((∀ label ∈ item.shape.labels, Text.Unbroken label.toList) → Commented d) := by
  obtain ⟨p, hpending, hfinish⟩ := finished_of_run hrun
  have hclosed := hpending.closed_of_finish_eq hfinish
  have hnames := usable_of_plainlyNamed (indexed_of_run hrun) (plainlyNamed_of_run hrun)
  have hidentifiers : ∀ name ∈ m.names, Name.IsIdentifier name :=
    fun name hname => (hnames name hname).1
  obtain ⟨item, hitem, hname, hbody⟩ := exists_bodyOf hrender hd
  have hrefs := grounds_of_closed hclosed hitem
  have hvariants : ∀ v ∈ item.shape.variants, v.Presentable := fun v hv =>
    hclosed.presentable v (Model.mem_variants.mpr (.inl ⟨item, List.mem_of_getElem? hitem, hv⟩))
  obtain ⟨hlabels, hafter, hsafely⟩ := safely_bodyOf hidentifiers hvariants hrefs hbody ha
  -- the line with the expression is a single one, since all names in it are identifiers
  have hidentifier : Name.IsIdentifier d.name := by
    rw [hname]
    exact hidentifiers _ (List.mem_map_of_mem (List.mem_of_getElem? hitem))
  have hforall := forall₂_bodyOf (fun name hname => (hnames name hname).2) hrefs hbody
    (evaluated_of_assigned ha)
  have he := TypeExpr.unbroken_text e (isIdentifier_of_mentioned hnames hforall)
  have hcommented := (commented_iff_safely ha hidentifier he).trans hsafely
  refine ⟨exists_text_eq (List.mem_of_getElem? hd), ?_, hcommented, item, hitem, hname, hlabels, ?_⟩
  · rw [lines_text ha hidentifier he, List.getLast?_concat]
  · intro hunbroken
    rw [← hlabels, List.forall_mem_map] at hunbroken
    exact hcommented.mpr fun p hp => contained_of_unbroken (hunbroken p hp) (hafter p hp)

/-- A document with a union: its documentation, the field that tells its alternatives apart, and the
one tag there is. -/
def taggedDocument (documentation field tag : String) : Document :=
  let cat := "#/components/schemas/Cat"
  .object
    [(.text "components", .object
      [(.text "schemas", .object
        [(.text "Cat", .object [(.text "type", .text "object")]),
          (.text "Pet", .object
            [(.text "description", .text documentation),
              (.text "oneOf", .array [.object [(.text "$ref", .text cat)]]),
              (.text "discriminator", .object
                [(.text "propertyName", .text field),
                  (.text "mapping", .object [(.text tag, .text cat)])])])])])]

/-- Documentation of two lines stands in two comments, and the labels have no line end. -/
theorem commented_taggedDocument :
    ∃ m b, (run (taggedDocument "A pet.\nimport os" "kind" "cat") {} none).1 = .ok m ∧
      ofModel m true = .ok b ∧
      b.headings = [(none, []), (some ["# A pet.", "# import os", "# Tagged by the \"kind\" property.",
        "#   Cat (cat): Cat"], ["kind", "cat"])] ∧
      ∀ (i : Nat) (d : Definition), b.definitions[i]? = some d → d.body.assigned? ≠ none →
        Commented d := by
  have hrendered : ((run (taggedDocument "A pet.\nimport os" "kind" "cat") {} none).1.toOption.bind
      fun m => (ofModel m true).toOption.map headings) =
        some [(none, []), (some ["# A pet.", "# import os", "# Tagged by the \"kind\" property.",
          "#   Cat (cat): Cat"], ["kind", "cat"])] := by
    decide +kernel
  obtain ⟨m, b, hrun, hrender, hheadings⟩ := exists_rendered hrendered
  refine ⟨m, b, hrun, hrender, hheadings, fun i d hd ha => ?_⟩
  obtain ⟨⟨heads, e⟩, ha⟩ := Option.ne_none_iff_exists'.mp ha
  obtain ⟨_, _, _, item, _, _, hlabels, hcommented⟩ := commented_iff_of_run hrun hrender hd ha
  have hunbroken : ∀ p ∈ b.headings, ∀ label ∈ p.2, Text.Unbroken label.toList := by
    rw [hheadings]
    decide
  rw [← hlabels] at hcommented
  exact hcommented (hunbroken _ (List.mem_map_of_mem (List.mem_of_getElem? hd)))

/-- A label with a line end breaks out of its comment: what follows the line end is code. -/
theorem injected_taggedDocument :
    ∃ m b, (run (taggedDocument "A pet." "kind\nimport os" "cat") {} none).1 = .ok m ∧
      ofModel m true = .ok b ∧ ∃ d ∈ b.definitions, d.body.assigned? ≠ none ∧
      d.text = "# A pet.\n# Tagged by the \"kind\nimport os\" property.\n#   Cat (cat): Cat\n" ++
        "Pet = Cat\n" ∧ ¬Commented d := by
  have hrendered : ((run (taggedDocument "A pet." "kind\nimport os" "cat") {} none).1.toOption.bind
      fun m => (ofModel m true).toOption.map fun b => b.definitions.map fun d =>
        (d.body.assigned?.isSome, d.text)) =
        some [(false, "class Cat(BaseModel):\n    model_config = ConfigDict(populate_by_name=True)\n"),
          (true, "# A pet.\n# Tagged by the \"kind\nimport os\" property.\n#   Cat (cat): Cat\n" ++
            "Pet = Cat\n")] := by
    decide +kernel
  obtain ⟨m, b, hrun, hrender, hdefinitions⟩ := exists_rendered hrendered
  -- the union is the second definition
  obtain ⟨d, hd, hread⟩ := List.mem_map.mp
    (hdefinitions ▸ List.mem_cons_of_mem _ List.mem_cons_self)
  obtain ⟨hassigned, htext⟩ := Prod.mk.inj hread
  refine ⟨m, b, hrun, hrender, d, hd, ?_, htext, ?_⟩
  · rw [← Option.isSome_iff_ne_none, hassigned]
  · rw [Commented, htext]
    decide +kernel

end Conversion

end TypedApi
