import TypedApi.Proofs.Bindings.Literals
import TypedApi.Proofs.Name.Snake
/-!
The keys of fields.

A field is filled from the key that its alias denotes, and from its own name as well,
since records are populated by name. Names are made free of each other and not of
aliases, so a field also takes what is meant for another one if its name is the
other's property. That needs a name to be given up: the name proposed for a property
is also proposed for itself, so where no two properties have the same name proposed,
no field takes the key of another.
-/

set_option autoImplicit false

namespace TypedApi

namespace Bindings

/-! ## Keys in units -/

/-- The key that a literal of a property denotes. -/
def keyOf (property : String) : List Char :=
  property.toList.flatMap inUnits

/-- A stand-in is above the basic plane. -/
theorem le_toNat_of_halfUnit? {c : Char} {u : Nat} (h : Text.halfUnit? c = some u) :
    0x10000 ≤ c.toNat := by
  unfold Text.halfUnit? at h
  split at h
  · rename_i hc
    rw [Bool.and_eq_true, decide_eq_true_iff] at hc
    exact Nat.le_trans (by decide) hc.1
  · cases h

/-- The halves of a pair are stand-ins. -/
theorem isSome_halfUnit?_of_mem_inUnits {c d : Char} (h : ¬IsOneUnit c) (hd : d ∈ inUnits c) :
    (Text.halfUnit? d).isSome := by
  have hvalid : c.toNat < 0xd800 ∨ 0xdfff < c.toNat ∧ c.toNat < 0x110000 := c.valid
  have hhalf : ∀ u, 0xd800 ≤ u → u < 0xe000 → (Text.halfUnit? (Text.unitChar u)).isSome := by
    intro u hlow hhigh
    have hpair : (Text.isLead u || Text.isTrail u) = true := by
      simp [Text.isLead, Text.isTrail]
      omega
    rw [Text.halfUnit_unitChar u hpair]
    rfl
  rw [IsOneUnit, not_or, Bool.not_eq_true, Option.isSome_eq_false_iff, Option.isNone_iff_eq_none]
    at h
  simp only [inUnits, Text.units16, h.1, h.2, if_false, List.map_cons, List.map_nil,
    List.mem_cons, List.not_mem_nil, or_false] at hd
  rcases hd with hd | hd
  · rw [hd]
    exact hhalf _ (by omega) (by omega)
  · rw [hd]
    exact hhalf _ (by omega) (by omega)

/-- The halves of a pair are above the basic plane. -/
theorem toNat_of_mem_inUnits {c d : Char} (h : ¬IsOneUnit c) (hd : d ∈ inUnits c) :
    0x10000 ≤ d.toNat := by
  obtain ⟨u, hu⟩ := Option.isSome_iff_exists.mp (isSome_halfUnit?_of_mem_inUnits h hd)
  exact le_toNat_of_halfUnit? hu

/-- What a literal is read as has characters of one unit only. -/
theorem isOneUnit_of_mem_keyOf {s : String} {d : Char} (hd : d ∈ keyOf s) : IsOneUnit d := by
  obtain ⟨c, _, hc⟩ := List.mem_flatMap.mp hd
  by_cases hone : IsOneUnit c
  · rw [inUnits_of_isOneUnit hone, List.mem_singleton] at hc
    rwa [hc]
  · exact .inr (isSome_halfUnit?_of_mem_inUnits hone hc)

theorem not_isWordChar_of_le {c : Char} (h : 0x10000 ≤ c.toNat) : Name.isWordChar c = false := by
  by_contra hword
  have := Name.toNat_lt_of_isWordChar (eq_true_of_ne_false hword)
  omega

/-- Halves separate words as the character does that they make up. -/
theorem chunksFrom_inUnits (run cs : List Char) :
    Name.chunksFrom run (cs.flatMap inUnits) = Name.chunksFrom run cs := by
  induction cs generalizing run with
  | nil => rfl
  | cons c cs ih =>
    by_cases hc : IsOneUnit c
    · rw [List.flatMap_cons, inUnits_of_isOneUnit hc, List.singleton_append, Name.chunksFrom.eq_2,
        Name.chunksFrom.eq_2 run c cs, ih, ih]
    · have hhalves := fun d hd => not_isWordChar_of_le (toNat_of_mem_inUnits (d := d) hc hd)
      obtain ⟨a, b, hab⟩ := List.length_eq_two.mp (length_inUnits_of_not hc)
      have hwide : Name.isWordChar c = false := not_isWordChar_of_le (by
        rw [IsOneUnit, not_or] at hc
        omega)
      rw [hab] at hhalves
      rw [List.flatMap_cons, hab, List.cons_append, List.singleton_append,
        Name.chunksFrom_separator (hhalves a (by simp)), Name.chunks,
        Name.chunksFrom_separator (hhalves b (by simp)), Name.chunks, ih,
        Name.chunksFrom_separator hwide]
      rfl

/-- **The name proposed for a property** is that for its key. -/
theorem fieldName_of_keyOf_eq {p q : String} (h : keyOf p = keyOf q) :
    fieldName p = fieldName q := by
  have hchunks : Name.chunks p.toList = Name.chunks q.toList := by
    rw [Name.chunks, ← chunksFrom_inUnits, Name.chunks, ← chunksFrom_inUnits [] q.toList]
    exact congrArg _ h
  have hsnake : Name.snake p = Name.snake q := by
    rw [Name.snake, Name.snake, Name.wordChars, Name.wordChars, hchunks]
  rw [fieldName, fieldName, hsnake]

/-- A plain name is the key of itself alone. -/
theorem keyOf_eq_iff_of_plain {name : String} (h : Name.Plain name) (property : String) :
    keyOf property = name.toList ↔ property = name := by
  have hnarrow : ∀ c ∈ name.toList, c.toNat < 0x10000 := by
    intro c hc
    rcases h c hc with hword | rfl
    · have := Name.toNat_lt_of_isWordChar hword
      omega
    · decide
  have hself : ∀ cs : List Char, (∀ c ∈ cs.flatMap inUnits, c.toNat < 0x10000) →
      cs.flatMap inUnits = cs := by
    intro cs hcs
    refine flatMap_inUnits_eq_self_iff.mpr fun c hc => ?_
    by_contra hpair
    obtain ⟨a, b, hab⟩ := List.length_eq_two.mp (length_inUnits_of_not hpair)
    have ha : a ∈ inUnits c := by
      rw [hab]
      exact List.mem_cons_self
    have hlow := hcs a (List.mem_flatMap.mpr ⟨c, hc, ha⟩)
    have hhigh := toNat_of_mem_inUnits hpair ha
    omega
  constructor
  · intro heq
    have hproperty := hself property.toList (by rw [← keyOf, heq]; exact hnarrow)
    rw [← String.toList_inj, ← heq, keyOf, hproperty]
  · rintro rfl
    exact flatMap_inUnits_eq_self_iff.mpr fun c hc => .inl (hnarrow c hc)

/-! ## The names proposed -/

/-- The words of a property, or the word in their place. -/
def fieldWords (property : String) : String :=
  orIfEmpty (Name.snake property) "field"

theorem fieldName_of_fieldWords_eq {p q : String} (h : fieldWords p = fieldWords q) :
    fieldName p = fieldName q := by
  rw [fieldWords, fieldWords] at h
  rw [fieldName, fieldName, h]

/-- The word that stands for a property without words, and before a name that is taken. -/
theorem lower_field : ∀ c ∈ "field".toList, (Name.isSmall c || Name.isNumeric c) = true :=
  List.all_eq_true.mp (by decide)

/-- There are words, without capitals. -/
theorem exists_fieldWords_eq (property : String) :
    ∃ ws, Name.Lower ws ∧ ws ≠ [] ∧ (fieldWords property).toList = List.intercalate ['_'] ws := by
  by_cases hempty : Name.snake property = ""
  · refine ⟨["field".toList], .cons (by decide) lower_field .nil, by decide, ?_⟩
    rw [fieldWords, orIfEmpty, if_pos hempty]
    rfl
  · refine ⟨_, Name.lower_wordChars property.toList, ?_, ?_⟩
    · intro hwords
      rw [Name.snake, hwords] at hempty
      exact hempty rfl
    · rw [fieldWords, orIfEmpty, if_neg hempty, Name.snake, String.toList_ofList]

/-- The words begin with a small letter or a digit. -/
theorem exists_head_fieldWords (property : String) :
    ∃ c rest, (fieldWords property).toList = c :: rest ∧
      (Name.isSmall c || Name.isNumeric c) = true := by
  obtain ⟨ws, hlower, hne, hwords⟩ := exists_fieldWords_eq property
  obtain ⟨w, ws, rfl⟩ := List.exists_cons_of_ne_nil hne
  obtain ⟨c, rest, rfl⟩ := List.exists_cons_of_ne_nil (hlower.nonempty w List.mem_cons_self)
  rw [Name.intercalate_singleton_cons] at hwords
  exact ⟨c, _, hwords, hlower.lower _ List.mem_cons_self c List.mem_cons_self⟩

/-- No name that is kept begins like that of a field whose words begin with a digit. -/
theorem notMem_field_append (name : String) : "field" ++ name ∉ recordAttributes := by
  intro h
  have hall : ∀ word ∈ recordAttributes, "field".toList.isPrefixOf word.toList = false := by
    decide
  have hprefix := hall _ h
  rw [String.toList_append, List.isPrefixOf_iff_prefix.mpr (List.prefix_append _ _)] at hprefix
  cases hprefix

/-- A name that begins well for a field. -/
def shaped (name : String) : String :=
  if startsWith name "_" then "field" ++ name
  else if startsWith name "model_" then name ++ "_"
  else name

theorem fieldName_eq (property : String) :
    fieldName property =
      if recordAttributes.contains (shaped (Name.escape (fieldWords property))) then
        shaped (Name.escape (fieldWords property)) ++ "_"
      else shaped (Name.escape (fieldWords property)) :=
  rfl

theorem shaped_underscore_append (name : String) : shaped ("_" ++ name) = "field_" ++ name := by
  have hstart : startsWith ("_" ++ name) "_" = true := by
    rw [startsWith, String.toList_append]
    rfl
  rw [shaped, if_pos hstart, ← String.append_assoc]
  rfl

theorem shaped_field_append (name : String) : shaped ("field_" ++ name) = "field_" ++ name := by
  have hstart : startsWith ("field_" ++ name) "_" = false := by
    rw [startsWith, String.toList_append]
    rfl
  have hmodel : startsWith ("field_" ++ name) "model_" = false := by
    rw [startsWith, String.toList_append]
    rfl
  rw [shaped, hstart, if_neg Bool.false_ne_true, hmodel, if_neg Bool.false_ne_true]

/-- No reserved name begins with an underscore. -/
theorem isReserved_underscore_append (name : String) : Name.isReserved ("_" ++ name) = false := by
  by_contra h
  have hall : ∀ word ∈ Name.keywords ++ Name.imported,
      "_".toList.isPrefixOf word.toList = false := by
    decide
  have hmem : "_" ++ name ∈ Name.keywords ++ Name.imported := by
    simpa [Name.isReserved] using eq_true_of_ne_false h
  have hprefix := hall _ hmem
  rw [String.toList_append, List.isPrefixOf_iff_prefix.mpr (List.prefix_append _ _)] at hprefix
  cases hprefix

/-- Words that begin with a digit follow the word for a field. -/
theorem fieldName_of_digit {property : String} {c : Char} {rest : List Char}
    (h : (fieldWords property).toList = c :: rest) (hc : Text.isDigit c = true) :
    fieldName property = "field_" ++ fieldWords property := by
  have hescape : Name.escape (fieldWords property) = "_" ++ fieldWords property := by
    rw [Name.escape, h]
    dsimp only
    rw [if_pos hc, isReserved_underscore_append, if_neg Bool.false_ne_true]
  have hkept := notMem_field_append ("_" ++ fieldWords property)
  rw [← String.append_assoc] at hkept
  rw [fieldName_eq, hescape, shaped_underscore_append]
  exact if_neg (by simpa using hkept)

/-- A name with underscores after it. -/
def Padded (words name : String) : Prop :=
  ∃ n, name.toList = words.toList ++ List.replicate n '_'

theorem Padded.refl (words : String) : Padded words words :=
  ⟨0, (List.append_nil _).symm⟩

theorem Padded.underscore {words name : String} (h : Padded words name) :
    Padded words (name ++ "_") := by
  obtain ⟨n, hn⟩ := h
  refine ⟨n + 1, ?_⟩
  rw [String.toList_append, hn, List.append_assoc, List.replicate_succ']
  rfl

/-- Words that begin with a small letter have underscores after them at most. -/
theorem padded_fieldName {property : String} {c : Char} {rest : List Char}
    (h : (fieldWords property).toList = c :: rest) (hc : Text.isDigit c = false) (hne : c ≠ '_') :
    Padded (fieldWords property) (fieldName property) := by
  have hescape : Padded (fieldWords property) (Name.escape (fieldWords property)) := by
    rw [Name.escape, h]
    dsimp only
    rw [hc, if_neg Bool.false_ne_true]
    split
    · exact (Padded.refl _).underscore
    · exact .refl _
  have hstart : startsWith (Name.escape (fieldWords property)) "_" = false := by
    obtain ⟨n, hn⟩ := hescape
    have hfirst : ('_' == c) = false := beq_eq_false_iff_ne.mpr hne.symm
    rw [startsWith, hn, h, List.cons_append]
    show ('_' == c && _) = false
    rw [hfirst, Bool.false_and]
  have hshaped : Padded (fieldWords property) (shaped (Name.escape (fieldWords property))) := by
    rw [shaped, hstart, if_neg Bool.false_ne_true]
    split
    · exact hescape.underscore
    · exact hescape
  rw [fieldName_eq]
  split
  · exact hshaped.underscore
  · exact hshaped

/-- The word for a field with words after it has them for its words. -/
theorem fieldWords_field_append {property : String} {ws : List (List Char)}
    (hlower : Name.Lower ws) (hne : ws ≠ [])
    (hws : (fieldWords property).toList = List.intercalate ['_'] ws) :
    fieldWords ("field_" ++ fieldWords property) = "field_" ++ fieldWords property := by
  obtain ⟨w, ws, rfl⟩ := List.exists_cons_of_ne_nil hne
  have hname : ("field_" ++ fieldWords property).toList =
      List.intercalate ['_'] ("field".toList :: w :: ws) := by
    rw [String.toList_append, hws, List.intercalate_cons_cons, List.append_assoc]
    rfl
  have hlower' : Name.Lower ("field".toList :: w :: ws) := .cons (by decide) lower_field hlower
  have hsnake := Name.snake_intercalate hlower' 0 (hname.trans (List.append_nil _).symm)
  rw [← hname, String.toList_inj] at hsnake
  rw [fieldWords, hsnake, orIfEmpty, if_neg]
  intro hempty
  rw [hempty] at hname
  cases hname

/-- **The name proposed for a property** is proposed for itself as well. -/
theorem fieldName_fieldName (property : String) :
    fieldName (fieldName property) = fieldName property := by
  obtain ⟨ws, hlower, hne, hws⟩ := exists_fieldWords_eq property
  obtain ⟨c, rest, hwords, hc⟩ := exists_head_fieldWords property
  by_cases hdigit : Text.isDigit c = true
  · have hsafe := safe_field_append ("_" ++ fieldWords property)
    have hkept := notMem_field_append ("_" ++ fieldWords property)
    have hfield : "field" ++ "_" = "field_" := rfl
    rw [← String.append_assoc, hfield] at hsafe hkept
    rw [fieldName_of_digit hwords hdigit, fieldName_eq, fieldWords_field_append hlower hne hws,
      escape_of_safe hsafe, shaped_field_append]
    exact if_neg (by simpa using hkept)
  · have hunderscore : c ≠ '_' := by
      rintro rfl
      cases hc
    obtain ⟨n, hn⟩ := padded_fieldName hwords (eq_false_of_ne_true hdigit) hunderscore
    rw [hws] at hn
    have hsnake := Name.snake_intercalate hlower n hn
    rw [← hws, String.toList_inj] at hsnake
    refine fieldName_of_fieldWords_eq ?_
    rw [fieldWords, hsnake, orIfEmpty, if_neg]
    intro hempty
    rw [hempty] at hwords
    cases hwords

/-! ## The keys of fields -/

/-- The keys that a field takes: its name, since records are populated by name, and what the literal
of its alias denotes. -/
def Field.keys (f : Field) : List (List Char) :=
  f.name.toList ::
    f.inputName.toList.filterMap fun a => (literal? (Text.doubleQuoted a).toList).map Prod.fst

/-- A field with the name and the alias that it has for a property. -/
structure NamedFor (property : String) (f : Field) : Prop where
  plain : Name.Plain f.name
  inputName : f.inputName = if f.name = property then none else some property

theorem mem_keys_iff {property : String} {f : Field} (h : NamedFor property f) (key : List Char) :
    key ∈ f.keys ↔ key = f.name.toList ∨ key = keyOf property := by
  rw [Field.keys, List.mem_cons, h.inputName]
  by_cases hname : f.name = property
  · have hkey := (keyOf_eq_iff_of_plain h.plain property).mpr hname.symm
    rw [if_pos hname, hkey]
    simp
  · rw [if_neg hname, Option.toList_some, List.filterMap_cons, literal?_doubleQuoted_alone]
    simp [keyOf]

/-- **Two fields share a key** exactly if one of them has the property of the other for its name, or
the literals of their properties are read as the same. -/
theorem disjoint_keys_iff {p q : String} {f g : Field} (hf : NamedFor p f) (hg : NamedFor q g)
    (hne : f.name ≠ g.name) :
    List.Disjoint f.keys g.keys ↔ f.name ≠ q ∧ g.name ≠ p ∧ keyOf p ≠ keyOf q := by
  have hnames : f.name.toList ≠ g.name.toList := fun h => hne (String.toList_inj.mp h)
  have hfq : f.name.toList = keyOf q ↔ f.name = q := by
    rw [eq_comm, keyOf_eq_iff_of_plain hf.plain, eq_comm]
  have hgp : keyOf p = g.name.toList ↔ g.name = p := by
    rw [keyOf_eq_iff_of_plain hg.plain, eq_comm]
  simp only [List.disjoint_left, mem_keys_iff hf, mem_keys_iff hg, forall_eq_or_imp, forall_eq,
    not_or, hnames, not_false_iff, true_and, hfq, hgp]

/-- The fields for members are named for their properties. -/
theorem namedFor_fieldsFrom {m : Model} {taken : List String} {members : Table Member}
    {fields : List Field} (h : fieldsFrom m taken members = .ok fields) :
    List.Forall₂ (fun p f => NamedFor p.1 f) members fields := by
  induction members generalizing taken fields with
  | nil =>
    cases h
    exact .nil
  | cons p rest ih =>
    obtain ⟨property, member⟩ := p
    obtain ⟨type, _, h⟩ := of_bind_eq_ok h
    obtain ⟨others, hothers, h⟩ := of_bind_eq_ok h
    cases h
    exact .cons ⟨(plain_safe_clear_fieldName property).1.deconflict taken, rfl⟩ (ih hothers)

/-- **Names that are proposed once are given**, if none of them is taken before. -/
theorem names_fieldsFrom {m : Model} {taken : List String} {members : Table Member}
    {fields : List Field} (h : fieldsFrom m taken members = .ok fields)
    (hnodup : (members.keys.map fieldName).Nodup)
    (hfree : ∀ p ∈ members.keys, fieldName p ∉ taken) :
    fields.map (·.name) = members.keys.map fieldName := by
  induction members generalizing taken fields with
  | nil =>
    cases h
    rfl
  | cons p rest ih =>
    obtain ⟨property, member⟩ := p
    obtain ⟨type, _, h⟩ := of_bind_eq_ok h
    obtain ⟨others, hothers, h⟩ := of_bind_eq_ok h
    cases h
    obtain ⟨hfirst, hfree⟩ := List.forall_mem_cons.mp hfree
    obtain ⟨hnew, hnodup⟩ := List.nodup_cons.mp hnodup
    have hname : Name.deconflict (fieldName property) taken = fieldName property := by
      rw [Name.deconflict, escape_of_safe (plain_safe_clear_fieldName property).2.1]
      exact if_neg (by simpa using hfirst)
    have hnext : ∀ p ∈ Table.keys rest,
        fieldName p ∉ Name.deconflict (fieldName property) taken :: taken := by
      intro p hp
      rw [hname, List.mem_cons, not_or]
      refine ⟨fun heq => hnew ?_, hfree p hp⟩
      exact List.mem_map.mpr ⟨p, hp, heq⟩
    exact List.cons_eq_cons.mpr ⟨hname, ih hothers hnodup hnext⟩

/-- Which fields of a record share a key: two of them keep apart exactly if neither has the property
of the other for its name and their aliases are read differently, and all of them do if no two
properties have the same name proposed. -/
structure KeyedFor (properties : List String) (fields : List Field) : Prop where
  length : fields.length = properties.length
  disjoint_iff : (properties.zip fields).Pairwise fun a b =>
    List.Disjoint a.2.keys b.2.keys ↔
      a.2.name ≠ b.1 ∧ b.2.name ≠ a.1 ∧ keyOf a.1 ≠ keyOf b.1
  disjoint : (properties.map fieldName).Nodup →
    fields.Pairwise fun f g => List.Disjoint f.keys g.keys

/-- **The fields for the members of an object** by their keys. -/
theorem keyedFor_fieldsFrom {m : Model} {members : Table Member} {fields : List Field}
    (h : fieldsFrom m [] members = .ok fields) : KeyedFor members.keys fields := by
  have hnamed : List.Forall₂ NamedFor members.keys fields :=
    List.forall₂_map_left_iff.mpr (namedFor_fieldsFrom h)
  have hlength : members.keys.length = fields.length := hnamed.length_eq
  have hnodup : (fields.map (·.name)).Nodup := ((allotted_fieldsFrom h).1.scope .nil).nodup
  have hpair : ∀ (i j : Nat) (hi : i < fields.length) (hj : j < fields.length), i < j →
      (List.Disjoint fields[i].keys fields[j].keys ↔
        fields[i].name ≠ members.keys[j] ∧ fields[j].name ≠ members.keys[i] ∧
          keyOf members.keys[i] ≠ keyOf members.keys[j]) := by
    intro i j hi hj hij
    have hname : fields[i].name ≠ fields[j].name := by
      have := List.pairwise_iff_getElem.mp hnodup i j (by simpa using hi) (by simpa using hj) hij
      simpa using this
    exact disjoint_keys_iff (hnamed.get (hlength ▸ hi) hi) (hnamed.get (hlength ▸ hj) hj) hname
  refine ⟨hlength.symm, ?_, fun hproposed => ?_⟩
  · refine List.pairwise_iff_getElem.mpr fun i j hi hj hij => ?_
    rw [List.length_zip] at hi hj
    rw [List.getElem_zip, List.getElem_zip]
    exact hpair i j (by omega) (by omega) hij
  · have hnames := names_fieldsFrom h hproposed fun p _ => List.not_mem_nil
    have hname : ∀ (i : Nat) (hi : i < fields.length),
        fields[i].name = fieldName members.keys[i] := by
      intro i hi
      have hmap := List.getElem_of_eq hnames (i := i) (by simpa using hi)
      rwa [List.getElem_map, List.getElem_map] at hmap
    refine List.pairwise_iff_getElem.mpr fun i j hi hj hij => (hpair i j hi hj hij).mpr ?_
    have hne : fieldName members.keys[i] ≠ fieldName members.keys[j] := by
      have := List.pairwise_iff_getElem.mp hproposed i j (by simp; omega) (by simp; omega) hij
      simpa using this
    rw [hname i hi, hname j hj]
    refine ⟨fun heq => hne ?_, fun heq => hne ?_, fun heq => hne (fieldName_of_keyOf_eq heq)⟩
    · rw [← heq, fieldName_fieldName]
    · rw [← heq, fieldName_fieldName]

/-- Only an item with members makes a record, and of these. -/
theorem exists_members_of_bodyOf {m : Model} {emitDocs : Bool} {position : Nat} {item : Item}
    {docs : Option String} {fields : List Field}
    (h : bodyOf m emitDocs position item = .ok (.record docs fields)) :
    ∃ members, item.shape = .object members ∧ fieldsFrom m [] members = .ok fields := by
  rw [bodyOf] at h
  split at h
  · obtain ⟨type, _, h⟩ := of_bind_eq_ok h
    obtain ⟨docs, _, h⟩ := of_bind_eq_ok h
    cases h
  · split at h
    · rename_i members hshape
      obtain ⟨fields, hfields, h⟩ := of_bind_eq_ok h
      obtain ⟨docs, _, h⟩ := of_bind_eq_ok h
      cases h
      exact ⟨members, hshape, hfields⟩
    · obtain ⟨docs, _, h⟩ := of_bind_eq_ok h
      cases h
    · obtain ⟨alternatives, _, h⟩ := of_bind_eq_ok h
      obtain ⟨docs, _, h⟩ := of_bind_eq_ok h
      cases h
    · obtain ⟨type, _, h⟩ := of_bind_eq_ok h
      obtain ⟨docs, _, h⟩ := of_bind_eq_ok h
      cases h

/-- **The fields of a record in a module** by their keys. -/
theorem keyedFor_of_ofModel {m : Model} {emitDocs : Bool} {b : Bindings}
    (h : ofModel m emitDocs = .ok b) {i : Nat} {d : Definition} {docs : Option String}
    {fields : List Field} (hd : b.definitions[i]? = some d) (hbody : d.body = .record docs fields) :
    ∃ item members, m.definitions[i]? = some item ∧ item.shape = .object members ∧
      KeyedFor members.keys fields := by
  obtain ⟨item, hitem, _, hmade⟩ := exists_bodyOf h hd
  rw [hbody] at hmade
  obtain ⟨members, hshape, hfields⟩ := exists_members_of_bodyOf hmade
  exact ⟨item, members, hitem, hshape, keyedFor_fieldsFrom hfields⟩

end Bindings

namespace Conversion

open Bindings

/-- A document with a record of some properties. -/
def recordDocument (properties : List String) : Document :=
  .object
    [(.text "components", .object
      [(.text "schemas", .object
        [(.text "Row", .object
          [(.text "type", .text "object"),
            (.text "properties", .object
              (properties.map fun p => (.text p, .object [(.text "type", .text "integer")])))])])])]

/-- The fields of a record. -/
def fields? (d : Definition) : Option (List Field) :=
  match d.body with
  | .record _ fields => some fields
  | _ => none

/-- The names of the fields of all records of a module, with their keys. -/
def keysOf (b : Bindings) : List (Option (List (String × List String))) :=
  b.definitions.map fun d =>
    (fields? d).map fun fields => fields.map fun f => (f.name, f.keys.map String.ofList)

theorem exists_record_of_keysOf {b : Bindings} {i : Nat} {keys : List (String × List String)}
    (h : (keysOf b)[i]? = some (some keys)) :
    ∃ d docs fields, b.definitions[i]? = some d ∧ d.body = .record docs fields ∧
      (fields.map fun f => (f.name, f.keys.map String.ofList)) = keys := by
  rw [keysOf, List.getElem?_map] at h
  obtain ⟨d, hd, h⟩ := Option.map_eq_some_iff.mp h
  obtain ⟨fields, hfields, h⟩ := Option.map_eq_some_iff.mp h
  unfold fields? at hfields
  split at hfields
  · rename_i docs fields' hbody
    cases hfields
    exact ⟨d, docs, fields, hd, hbody, h⟩
  · cases hfields

/-- Properties with different names proposed have fields that share no key. -/
theorem recordDocument_disjoint :
    ∃ m b fields, (run (recordDocument ["fooBar", "foo", "1st"]) {} none).1 = .ok m ∧
      ofModel m true = .ok b ∧
      (fields.map fun f => (f.name, f.keys.map String.ofList)) =
        [("foo_bar", ["foo_bar", "fooBar"]), ("foo", ["foo"]),
          ("field_1st", ["field_1st", "1st"])] ∧
      ∃ item members, m.definitions[3]? = some item ∧ item.shape = .object members ∧
        KeyedFor members.keys fields := by
  have hrendered : ((run (recordDocument ["fooBar", "foo", "1st"]) {} none).1.toOption.bind
      fun m => (ofModel m true).toOption.map keysOf) = some [none, none, none, some
        [("foo_bar", ["foo_bar", "fooBar"]), ("foo", ["foo"]),
          ("field_1st", ["field_1st", "1st"])]] := by
    decide +kernel
  obtain ⟨m, b, hrun, hrender, hkeys⟩ := exists_rendered hrendered
  obtain ⟨d, docs, fields, hd, hbody, hfields⟩ := exists_record_of_keysOf (i := 3) (by
    rw [hkeys]
    rfl)
  exact ⟨m, b, fields, hrun, hrender, hfields, keyedFor_of_ofModel hrender hd hbody⟩

/-- A property that has the name of another's field fills both fields. -/
theorem recordDocument_crossed :
    ∃ m b fields, (run (recordDocument ["fooBar", "foo_bar"]) {} none).1 = .ok m ∧
      ofModel m true = .ok b ∧ (∃ d ∈ b.definitions, fields? d = some fields) ∧
      (fields.map fun f => (f.name, f.keys.map String.ofList)) =
        [("foo_bar", ["foo_bar", "fooBar"]), ("foo_bar1", ["foo_bar1", "foo_bar"])] ∧
      ¬fields.Pairwise fun f g => List.Disjoint f.keys g.keys := by
  have hrendered : ((run (recordDocument ["fooBar", "foo_bar"]) {} none).1.toOption.bind
      fun m => (ofModel m true).toOption.map keysOf) = some [none, none, some
        [("foo_bar", ["foo_bar", "fooBar"]), ("foo_bar1", ["foo_bar1", "foo_bar"])]] := by
    decide +kernel
  obtain ⟨m, b, hrun, hrender, hkeys⟩ := exists_rendered hrendered
  obtain ⟨d, docs, fields, hd, hbody, hfields⟩ := exists_record_of_keysOf (i := 2) (by
    rw [hkeys]
    rfl)
  have hrecord : fields? d = some fields := by rw [fields?, hbody]
  refine ⟨m, b, fields, hrun, hrender, ⟨d, List.mem_of_getElem? hd, hrecord⟩, hfields, ?_⟩
  intro hdisjoint
  obtain ⟨f, g, rfl⟩ : ∃ f g, fields = [f, g] :=
    List.length_eq_two.mp (by simpa using congrArg List.length hfields)
  simp only [List.map_cons, List.map_nil, List.cons.injEq, Prod.mk.injEq, and_true] at hfields
  obtain ⟨⟨_, hf⟩, _, hg⟩ := hfields
  have hshared : ∀ keys : List (List Char), "foo_bar" ∈ keys.map String.ofList →
      "foo_bar".toList ∈ keys := by
    intro keys h
    obtain ⟨key, hkey, heq⟩ := List.mem_map.mp h
    rwa [← heq, String.toList_ofList]
  have hfirst := List.rel_of_pairwise_cons hdisjoint (List.mem_singleton_self g)
  exact hfirst (hshared f.keys (by rw [hf]; decide)) (hshared g.keys (by rw [hg]; decide))

end Conversion

end TypedApi
