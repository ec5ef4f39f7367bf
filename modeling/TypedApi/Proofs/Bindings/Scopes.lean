import TypedApi.Bindings.Basic
import TypedApi.Proofs.Conversion.Calls
import TypedApi.Proofs.Conversion.Parallel
import TypedApi.Proofs.Conversion.Stages
/-!
The names of a generated module.

Names are given scope by scope: to the definitions and the interface, to the
fields of a record, to the members of an enumeration, to the methods, and to the
arguments of a method. In each scope they are given one after the other, and each
is made free of those taken before, which escapes it as well; what is proposed is
plain, so what comes out is an identifier that is not reserved. A field has to
keep clear of more: of the names that a record hides, and of those it keeps for
itself. The form that it is given for that must survive being escaped and counted
up, and it does because no name to keep clear of ends in an underscore or in a
digit.
-/

set_option autoImplicit false

namespace TypedApi

namespace Bindings

/-! ## Scopes -/

/-- The names of one scope: each is an identifier that is not reserved, and no two are the same. -/
structure Scope (names : List String) : Prop where
  usable : ∀ name ∈ names, Name.IsIdentifier name ∧ Name.isReserved name = false
  nodup : names.Nodup

/-- Names given one after the other, each a plain name made free of those taken before. -/
inductive Allotted : List String → List String → Prop
  | nil (taken : List String) : Allotted taken []
  | cons (taken : List String) (proposed : String) (names : List String) : Name.Plain proposed →
    Allotted (Name.deconflict proposed taken :: taken) names →
    Allotted taken (Name.deconflict proposed taken :: names)

theorem Scope.nil : Scope [] :=
  ⟨by simp, List.nodup_nil⟩

/-- The order of names is of no account. -/
theorem Scope.perm {names names' : List String} (h : Scope names) (hperm : names.Perm names') :
    Scope names' :=
  ⟨fun name hname => h.usable name (hperm.mem_iff.mpr hname), hperm.nodup_iff.mp h.nodup⟩

/-- A plain name made free may come into the scope. -/
theorem Scope.cons {taken : List String} {proposed : String} (h : Scope taken)
    (hplain : Name.Plain proposed) : Scope (Name.deconflict proposed taken :: taken) where
  usable := List.forall_mem_cons.mpr ⟨hplain.isIdentifier_deconflict taken, h.usable⟩
  nodup := List.nodup_cons.mpr ⟨Name.deconflict_notMem proposed taken, h.nodup⟩

/-- **Names given one after the other make a scope**, together with those taken before. -/
theorem Allotted.scope {taken names : List String} (h : Allotted taken names)
    (htaken : Scope taken) : Scope (taken ++ names) := by
  induction h with
  | nil taken =>
    rw [List.append_nil]
    exact htaken
  | cons taken proposed names hplain _ ih =>
    exact (ih (htaken.cons hplain)).perm List.perm_middle.symm

/-! ## The names of fields -/

/-- A name that hides nothing of a record: it does not begin with an underscore, and it is neither
the configuration nor one of the attributes of records. -/
structure Clear (name : String) : Prop where
  start : startsWith name "_" = false
  config : name ≠ "model_config"
  attributes : name ∉ recordAttributes

/-- No name that a record keeps for itself ends in an underscore or in a digit. -/
theorem last_of_kept {name : String} {c : Char}
    (h : name = "model_config" ∨ name ∈ recordAttributes)
    (hc : name.toList.getLast? = some c) : c ≠ '_' ∧ c.isDigit = false := by
  have hall : ∀ word ∈ "model_config" :: recordAttributes,
      word.toList.getLast?.all (fun d => d ≠ '_' && !d.isDigit) = true := by decide
  have hlast := hall name (List.mem_cons.mpr h)
  rw [hc] at hlast
  simpa using hlast

/-- What is put after a name does not change how it begins. -/
theorem startsWith_append {name : String} (after : String) (h : startsWith name "_" = false)
    (hname : name.toList ≠ []) : startsWith (name ++ after) "_" = false := by
  obtain ⟨c, rest, hc⟩ := List.exists_cons_of_ne_nil hname
  simp only [startsWith, String.toList_append, hc] at h ⊢
  exact h

/-- A name with an underscore or a counter after it is clear if it begins well. -/
theorem clear_append {name after : String} {c : Char} (h : startsWith name "_" = false)
    (hname : name.toList ≠ []) (hlast : after.toList.getLast? = some c)
    (hc : c = '_' ∨ c.isDigit = true) : Clear (name ++ after) := by
  have hend : (name ++ after).toList.getLast? = some c := by
    rw [String.toList_append, List.getLast?_append, hlast]
    rfl
  have hkept : ¬(name ++ after = "model_config" ∨ name ++ after ∈ recordAttributes) := by
    intro hkept
    obtain ⟨hunderscore, hdigit⟩ := last_of_kept hkept hend
    rcases hc with hc | hc
    · exact hunderscore hc
    · rw [hc] at hdigit
      cases hdigit
  push Not at hkept
  exact ⟨startsWith_append after h hname, hkept.1, hkept.2⟩

theorem toList_ne_nil_of_safe {name : String} (h : Name.Safe name) : name.toList ≠ [] := by
  obtain ⟨c, rest, hname, _⟩ := h.start
  simp [hname]

/-- A safe name with an underscore after it is clear if it begins well. -/
theorem clear_append_underscore {name : String} (h : startsWith name "_" = false)
    (hsafe : Name.Safe name) : Clear (name ++ "_") :=
  clear_append h (toList_ne_nil_of_safe hsafe) rfl (.inl rfl)

/-- A safe name stays safe with an underscore after it. -/
theorem safe_append_underscore {name : String} (h : Name.Safe name) : Name.Safe (name ++ "_") := by
  obtain ⟨c, rest, hname, hdigit⟩ := h.start
  exact ⟨⟨c, rest ++ ['_'], by simp [hname], hdigit⟩, Name.isReserved_append_underscore name⟩

/-- No reserved name begins like the name of a field that has no good start of its own. -/
theorem safe_field_append (name : String) : Name.Safe ("field" ++ name) := by
  refine ⟨⟨'f', ['i', 'e', 'l', 'd'] ++ name.toList, by simp, by decide⟩, ?_⟩
  by_contra h
  have hall : ∀ word ∈ Name.keywords ++ Name.imported,
      "field".toList.isPrefixOf word.toList = false := by decide
  have hmem : "field" ++ name ∈ Name.keywords ++ Name.imported := by
    simpa [Name.isReserved] using eq_true_of_ne_false h
  have hprefix := hall _ hmem
  rw [String.toList_append, List.isPrefixOf_iff_prefix.mpr (List.prefix_append _ _)] at hprefix
  cases hprefix

/-- A plain name, or a plain one in its place if it is empty, is plain once it is escaped. -/
theorem plain_escape_orIfEmpty {name fallback : String} (h : Name.Plain name)
    (hfallback : Name.Plain fallback) : Name.Plain (Name.escape (orIfEmpty name fallback)) := by
  refine Name.Plain.escape ?_
  rw [orIfEmpty]
  split
  · exact hfallback
  · exact h

/-- **The name proposed for a field** is plain, safe and clear. -/
theorem plain_safe_clear_fieldName (property : String) :
    Name.Plain (fieldName property) ∧ Name.Safe (fieldName property) ∧
      Clear (fieldName property) := by
  have hplain : Name.Plain (Name.escape (orIfEmpty (Name.snake property) "field")) :=
    plain_escape_orIfEmpty (Name.plain_snake property) (by decide)
  have hsafe := Name.safe_escape (orIfEmpty (Name.snake property) "field")
  rw [fieldName]
  generalize Name.escape (orIfEmpty (Name.snake property) "field") = name at hplain hsafe
  generalize hshape : (if startsWith name "_" then "field" ++ name
    else if startsWith name "model_" then name ++ "_" else name) = shaped
  -- the shape begins well, and it is not the configuration
  have hshaped : Name.Plain shaped ∧ Name.Safe shaped ∧ startsWith shaped "_" = false ∧
      shaped ≠ "model_config" := by
    rw [← hshape]
    split
    · refine ⟨.append (by decide) hplain, safe_field_append name, ?_, fun h => ?_⟩
      · exact startsWith_append name (by decide) (by decide)
      · have := congrArg String.toList h
        simp at this
    · rename_i hstart
      have hstart : startsWith name "_" = false := eq_false_of_ne_true hstart
      split
      · have hclear := clear_append_underscore hstart hsafe
        exact ⟨hplain.append (by decide), safe_append_underscore hsafe, hclear.start, hclear.config⟩
      · rename_i hmodel
        refine ⟨hplain, hsafe, hstart, ?_⟩
        rintro rfl
        exact hmodel (by decide)
  obtain ⟨hplain, hsafe, hstart, hconfig⟩ := hshaped
  split
  · exact ⟨hplain.append (by decide), safe_append_underscore hsafe,
      clear_append_underscore hstart hsafe⟩
  · rename_i hattribute
    exact ⟨hplain, hsafe, hstart, hconfig, by simpa using hattribute⟩

/-- A safe name is escaped already. -/
theorem escape_of_safe {name : String} (h : Name.Safe name) : Name.escape name = name := by
  obtain ⟨c, rest, hname, hdigit⟩ := h.start
  rw [Name.escape, hname]
  simp [hdigit, h.free]

/-- **The name given to a field is clear**, counted up or not. -/
theorem clear_deconflict_fieldName (property : String) (taken : List String) :
    Clear (Name.deconflict (fieldName property) taken) := by
  obtain ⟨_, hsafe, hclear⟩ := plain_safe_clear_fieldName property
  rw [Name.deconflict, escape_of_safe hsafe]
  split
  · obtain ⟨n, hn⟩ := Name.exists_firstFree_eq taken (fieldName property) 1 taken.length
    obtain ⟨front, c, hdigits, hc⟩ := Name.exists_last_toString n
    rw [hn]
    refine clear_append hclear.start (toList_ne_nil_of_safe hsafe) (c := c) ?_ (.inr hc)
    rw [hdigits, List.getLast?_append]
    rfl
  · exact hclear

/-! ## Definitions -/

/-- A field for a property: its name is clear, and where that is not the name of the property, it
is written with that as its alias. -/
structure FieldFor (property : String) (f : Field) : Prop where
  clear : Clear f.name
  same : f.name = property → f.initial? = if f.optional then some "Field(default=None)" else none
  other : f.name ≠ property → f.initial? = some
    ((if f.optional then "Field(default=None, alias=" else "Field(alias=") ++
      Text.doubleQuoted property ++ ")")

/-- A definition for an item: under its name, with the names of one scope inside. -/
structure DefinitionFor (item : Item) (d : Definition) : Prop where
  name : d.name = item.generatedName
  fields : ∀ docs fields, d.body = .record docs fields →
    Scope (fields.map (·.name)) ∧
      ∃ members, item.shape = .object members ∧
        List.Forall₂ (fun p f => FieldFor p.1 f) members fields
  members : ∀ docs members other, d.body = .enumeration docs members other →
    Scope (other.toList ++ members.keys)

/-- How a field is initialized under another name. -/
theorem initial?_of_inputName {f : Field} {property : String} (h : f.inputName = some property) :
    f.initial? = some ((if f.optional then "Field(default=None, alias=" else "Field(alias=") ++
      Text.doubleQuoted property ++ ")") := by
  rw [Field.initial?, h]
  cases f.optional <;> simp [← String.append_assoc]

/-- **The fields for the members of an object** get their names one after the other. -/
theorem allotted_fieldsFrom {m : Model} {taken : List String} {members : Table Member}
    {fields : List Field} (h : fieldsFrom m taken members = .ok fields) :
    Allotted taken (fields.map (·.name)) ∧
      List.Forall₂ (fun p f => FieldFor p.1 f) members fields := by
  induction members generalizing taken fields with
  | nil =>
    cases h
    exact ⟨.nil taken, .nil⟩
  | cons p rest ih =>
    obtain ⟨property, member⟩ := p
    obtain ⟨type, _, h⟩ := of_bind_eq_ok h
    obtain ⟨others, hothers, h⟩ := of_bind_eq_ok h
    cases h
    obtain ⟨hallotted, hfields⟩ := ih hothers
    have hplain := (plain_safe_clear_fieldName property).1
    refine ⟨.cons taken _ _ hplain hallotted, .cons ⟨?_, ?_, ?_⟩ hfields⟩
    · exact clear_deconflict_fieldName property taken
    · intro hname
      dsimp only at hname ⊢
      rw [Field.initial?, if_pos hname]
      cases member.inlineOption <;> rfl
    · intro hname
      exact initial?_of_inputName (if_neg hname)

/-- **The members of an enumeration** get their names one after the other. -/
theorem allotted_membersFrom (taken variants : List String) :
    Allotted taken (membersFrom taken variants).keys := by
  induction variants generalizing taken with
  | nil => exact .nil taken
  | cons variant rest ih =>
    have hplain : Name.Plain (memberName variant) :=
      plain_escape_orIfEmpty (Name.plain_upperCamel variant) (by decide)
    exact .cons taken _ _ hplain (ih _)

/-- The catch-all is the word for it with some underscores. -/
theorem exists_freeOther_eq (avoid : List String) (candidate : String) (fuel : Nat) :
    ∃ n, (Shape.freeOther avoid candidate fuel).toList =
      candidate.toList ++ List.replicate n '_' := by
  induction fuel generalizing candidate with
  | zero => exact ⟨0, by simp [Shape.freeOther]⟩
  | succ fuel ih =>
    rw [Shape.freeOther]
    split
    · obtain ⟨n, hn⟩ := ih (candidate ++ "_")
      refine ⟨n + 1, ?_⟩
      rw [hn, String.toList_append, List.append_assoc]
      rfl
    · exact ⟨0, by simp⟩

theorem exists_otherVariant?_eq {shape : Shape} {other : String}
    (h : shape.otherVariant? = some other) :
    ∃ n, other.toList = "Other".toList ++ List.replicate n '_' := by
  unfold Shape.otherVariant? at h
  split at h
  · cases h
    exact exists_freeOther_eq ..
  · cases h

/-- With any count of underscores that word is plain. -/
theorem plain_other {name : String} {n : Nat}
    (hname : name.toList = "Other".toList ++ List.replicate n '_') : Name.Plain name := by
  intro c hc
  rw [hname] at hc
  rcases List.mem_append.mp hc with hc | hc
  · exact (show Name.Plain "Other" by decide) c hc
  · exact .inr (List.eq_of_mem_replicate hc)

/-- It is an identifier, too, that is not reserved. -/
theorem usable_other {name : String} {n : Nat}
    (hname : name.toList = "Other".toList ++ List.replicate n '_') :
    Name.IsIdentifier name ∧ Name.isReserved name = false := by
  have hfree : Name.isReserved name = false := by
    cases n with
    | zero =>
      obtain rfl : name = "Other" := by
        rw [← String.toList_inj, hname]
        simp
      decide
    | succ n =>
      -- no reserved name ends in an underscore
      by_contra hreserved
      have hlast : name.toList.getLast? = some '_' := by
        rw [hname, List.replicate_succ', ← List.append_assoc, List.getLast?_append]
        rfl
      exact (Name.last_of_isReserved (eq_true_of_ne_false hreserved) hlast).1 rfl
  exact ⟨(plain_other hname).isIdentifier ⟨⟨'O', _, hname, by decide⟩, hfree⟩, hfree⟩

/-- The catch-all alone makes a scope. -/
theorem scope_otherVariant? (shape : Shape) : Scope shape.otherVariant?.toList := by
  cases hother : shape.otherVariant? with
  | none => exact .nil
  | some other =>
    obtain ⟨n, hn⟩ := exists_otherVariant?_eq hother
    refine ⟨fun name hname => ?_, List.nodup_singleton _⟩
    rw [List.mem_singleton.mp hname]
    exact usable_other hn

/-- **The definition for an item** has the names of one scope inside. -/
theorem definitionFor_definitionOf {m : Model} {emitDocs : Bool} {position : Nat} {item : Item}
    {d : Definition} (h : definitionOf m emitDocs position item = .ok d) :
    DefinitionFor item d := by
  rw [definitionOf] at h
  cases hbody : bodyOf m emitDocs position item with
  | error e =>
    rw [hbody] at h
    cases h
  | ok body =>
    rw [hbody] at h
    cases h
    rw [bodyOf] at hbody
    split at hbody
    · obtain ⟨type, _, hbody⟩ := of_bind_eq_ok hbody
      obtain ⟨docs, _, hbody⟩ := of_bind_eq_ok hbody
      cases hbody
      exact ⟨rfl, nofun, nofun⟩
    · split at hbody
      · rename_i members hshape
        obtain ⟨fields, hfields, hbody⟩ := of_bind_eq_ok hbody
        obtain ⟨docs, _, hbody⟩ := of_bind_eq_ok hbody
        cases hbody
        obtain ⟨hallotted, hfor⟩ := allotted_fieldsFrom hfields
        refine ⟨rfl, ?_, nofun⟩
        rintro _ _ ⟨⟩
        exact ⟨hallotted.scope .nil, members, hshape, hfor⟩
      · obtain ⟨docs, _, hbody⟩ := of_bind_eq_ok hbody
        cases hbody
        refine ⟨rfl, nofun, ?_⟩
        rintro _ _ _ ⟨⟩
        exact (allotted_membersFrom _ _).scope (scope_otherVariant? item.shape)
      · obtain ⟨alternatives, _, hbody⟩ := of_bind_eq_ok hbody
        obtain ⟨docs, _, hbody⟩ := of_bind_eq_ok hbody
        cases hbody
        exact ⟨rfl, nofun, nofun⟩
      · obtain ⟨type, _, hbody⟩ := of_bind_eq_ok hbody
        obtain ⟨docs, _, hbody⟩ := of_bind_eq_ok hbody
        cases hbody
        exact ⟨rfl, nofun, nofun⟩

theorem forall₂_definitionsFrom {m : Model} {emitDocs : Bool} {position : Nat} {items : List Item}
    {ds : List Definition} (h : definitionsFrom m emitDocs position items = .ok ds) :
    List.Forall₂ DefinitionFor items ds := by
  induction items generalizing position ds with
  | nil =>
    cases h
    exact .nil
  | cons item rest ih =>
    obtain ⟨d, hd, h⟩ := of_bind_eq_ok h
    obtain ⟨others, hothers, h⟩ := of_bind_eq_ok h
    cases h
    exact .cons (definitionFor_definitionOf hd) (ih hothers)

/-- The definitions of a module have the names of the items, in order. -/
theorem names_definitionsFrom {m : Model} {emitDocs : Bool} {position : Nat} {items : List Item}
    {ds : List Definition} (h : definitionsFrom m emitDocs position items = .ok ds) :
    ds.map (·.name) = items.map (·.generatedName) := by
  have heq : List.Forall₂ Eq (ds.map Definition.name) (items.map Item.generatedName) :=
    List.forall₂_map_left_iff.mpr (List.forall₂_map_right_iff.mpr
      ((forall₂_definitionsFrom h).flip.imp fun d item h => h.name))
  exact List.forall₂_eq_eq_eq ▸ heq

/-! ## Methods -/

/-- Arguments get their names one after the other, if those asked for are plain. -/
theorem allotted_argumentsFrom {m : Model} {taken : List String} {rs : List Request}
    {arguments : List Argument} (h : argumentsFrom m taken rs = .ok arguments)
    (hplain : ∀ r ∈ rs, Name.Plain r.name) : Allotted taken (arguments.map (·.name)) := by
  induction rs generalizing taken arguments with
  | nil =>
    cases h
    exact .nil taken
  | cons r rest ih =>
    obtain ⟨type, _, h⟩ := of_bind_eq_ok h
    obtain ⟨others, hothers, h⟩ := of_bind_eq_ok h
    cases h
    exact .cons taken _ _ (hplain r List.mem_cons_self)
      (ih hothers fun r hr => hplain r (List.mem_cons_of_mem _ hr))

/-- An argument that is asked for if there is an item for it, under one name. -/
theorem name_of_mapM_toList {f : Ref → Except Failure Request} {name : String} {item : Option Ref}
    {rs : List Request} (hf : ∀ r q, f r = .ok q → q.name = name)
    (h : item.toList.mapM f = .ok rs) : ∀ q ∈ rs, q.name = name := by
  cases item with
  | none =>
    cases h
    simp
  | some r =>
    rw [Option.toList_some, List.mapM_cons] at h
    obtain ⟨q, hq, h⟩ := of_bind_eq_ok h
    cases h
    simpa using hf r q hq

/-- The arguments that an operation asks for have plain names if those for headers do. -/
theorem plain_of_requests {m : Model} {o : Operation} {rs : List Request}
    (h : requests m o = .ok rs) (hplain : ∀ p ∈ o.headers, Name.Plain p.2.generatedName) :
    ∀ r ∈ rs, Name.Plain r.name := by
  rw [requests] at h
  obtain ⟨query, hquery, h⟩ := of_bind_eq_ok h
  obtain ⟨body, hbody, h⟩ := of_bind_eq_ok h
  cases h
  have hquery : ∀ q ∈ query, q.name = "query" := by
    refine name_of_mapM_toList (fun r q hq => ?_) hquery
    obtain ⟨required, _, hq⟩ := of_bind_eq_ok hq
    cases hq
    rfl
  have hbody : ∀ q ∈ body, q.name = "body" := by
    refine name_of_mapM_toList (fun r q hq => ?_) hbody
    obtain ⟨item, _, hq⟩ := of_bind_eq_ok hq
    cases hq
    rfl
  intro r hr
  rcases List.mem_append.mp hr with hr | hr
  · rcases List.mem_append.mp hr with hr | hr
    · rcases List.mem_append.mp hr with hr | hr
      · obtain ⟨item, _, rfl⟩ := List.mem_map.mp hr
        exact (by decide : Name.Plain "path")
      · rw [hquery r hr]
        decide
    · rw [hbody r hr]
      decide
  · obtain ⟨p, hp, rfl⟩ := List.mem_map.mp hr
    exact hplain p hp

/-- **The arguments of a method** make a scope with the method's object. -/
theorem scope_argumentsOf {m : Model} {o : Operation} {arguments : List Argument}
    (h : argumentsOf m o = .ok arguments)
    (hplain : ∀ p ∈ o.headers, Name.Plain p.2.generatedName) :
    Scope ("self" :: arguments.map (·.name)) := by
  rw [argumentsOf] at h
  obtain ⟨rs, hrs, h⟩ := of_bind_eq_ok h
  obtain ⟨given, hgiven, h⟩ := of_bind_eq_ok h
  cases h
  have hself : Scope ["self"] := by
    have hcons := Scope.nil.cons (show Name.Plain "self" by decide)
    exact hcons
  have hscope := (allotted_argumentsFrom hgiven (plain_of_requests hrs hplain)).scope hself
  -- those that may be left out are moved to the end
  have hperm := List.filter_append_perm (fun a : Argument => a.required) given
  exact hscope.perm ((hperm.symm.map Argument.name).cons "self")

/-- **Methods** get their names one after the other, and each has arguments of one scope. -/
theorem allotted_methodsFrom {m : Model} {emitDocs : Bool} {taken : List String}
    {operations : List Operation} {methods : List Method}
    (h : methodsFrom m emitDocs taken operations = .ok methods)
    (hplain : ∀ o ∈ operations, ∀ p ∈ o.headers, Name.Plain p.2.generatedName) :
    Allotted taken (methods.map (·.name)) ∧
      ∀ method ∈ methods, Scope ("self" :: method.arguments.map (·.name)) := by
  induction operations generalizing taken methods with
  | nil =>
    cases h
    exact ⟨.nil taken, by simp⟩
  | cons o rest ih =>
    obtain ⟨method, hmethod, h⟩ := of_bind_eq_ok h
    obtain ⟨others, hothers, h⟩ := of_bind_eq_ok h
    cases h
    obtain ⟨arguments, harguments, hmethod⟩ := of_bind_eq_ok hmethod
    obtain ⟨returns, _, hmethod⟩ := of_bind_eq_ok hmethod
    cases hmethod
    have hname : Name.Plain (Name.escape (orIfEmpty o.functionName "operation")) :=
      plain_escape_orIfEmpty (Name.plain_snake o.label) (by decide)
    obtain ⟨hallotted, hscopes⟩ := ih hothers fun o ho => hplain o (List.mem_cons_of_mem _ ho)
    exact ⟨.cons taken _ _ hname hallotted, List.forall_mem_cons.mpr
      ⟨scope_argumentsOf harguments (hplain o List.mem_cons_self), hscopes⟩⟩

/-! ## Modules -/

/-- A module with usable names: every item has a definition under its name, and in each scope every
name is an identifier that is not reserved, given once. -/
structure WellNamed (m : Model) (b : Bindings) : Prop where
  top : Scope (b.interfaceName :: b.definitions.map (·.name))
  definitions : List.Forall₂ DefinitionFor m.definitions b.definitions
  methods : Scope (b.methods.map (·.name))
  arguments : ∀ method ∈ b.methods, Scope ("self" :: method.arguments.map (·.name))

/-- **A module is well named** if the names in the model are plain and their index is exact. -/
theorem wellNamed_of_ofModel {m : Model} {emitDocs : Bool} {b : Bindings}
    (h : ofModel m emitDocs = .ok b) (hindexed : m.Indexed) (hplain : m.PlainlyNamed) :
    WellNamed m b := by
  rw [ofModel] at h
  split at h
  · cases h
  · obtain ⟨definitions, hdefinitions, h⟩ := of_bind_eq_ok h
    obtain ⟨methods, hmethods, h⟩ := of_bind_eq_ok h
    cases h
    have hfor := forall₂_definitionsFrom hdefinitions
    obtain ⟨hallotted, hscopes⟩ := allotted_methodsFrom hmethods hplain.headers
    have hnames : definitions.map (·.name) = m.names := names_definitionsFrom hdefinitions
    have hscope : Scope m.names := by
      refine ⟨fun name hname => ?_, hindexed.nodup⟩
      have hsafe := hindexed.safe name hname
      obtain ⟨item, hitem, rfl⟩ := List.mem_map.mp hname
      exact ⟨(hplain.items item hitem).plain.isIdentifier hsafe, hsafe.free⟩
    refine ⟨?_, hfor, hallotted.scope .nil, hscopes⟩
    dsimp only
    rw [hnames, hindexed.keys_items]
    exact hscope.cons (by decide)

end Bindings

namespace Conversion

open Build

/-- The index of names of a model that a conversion returns is exact. -/
theorem indexed_of_run {document : Document} {options : ConversionOptions}
    {docs : Option Docs.Fetcher} {m : Model} (h : (run document options docs).1 = .ok m) :
    m.Indexed := by
  obtain ⟨w, hconstruct, hfinish⟩ := run_eq_ok_iff.mp h
  have hindexed := Call.indexed_run (.construct document) (start options docs)
    (Model.indexed_empty options.boundedIntegers)
  have hw : (exec (Call.construct document).run (start options docs)).2 = w := by
    rw [Call.run, hconstruct]
  rw [hw] at hindexed
  have hfinished := hindexed.finish
  rwa [hfinish] at hfinished

/-- **Whatever is rendered of a converted document is well named.** -/
theorem wellNamed_of_run {document : Document} {options : ConversionOptions}
    {docs : Option Docs.Fetcher} {m : Model} {emitDocs : Bool} {b : Bindings}
    (hrun : (run document options docs).1 = .ok m) (hrender : Bindings.ofModel m emitDocs = .ok b) :
    b.WellNamed m :=
  Bindings.wellNamed_of_ofModel hrender (indexed_of_run hrun) (plainlyNamed_of_run hrun)

/-- A document whose names clash with each other and with what is reserved, in every scope. -/
def clashingDocument : Document :=
  let header (name : String) : Document := .object
    [(.text "name", .text name), (.text "in", .text "header"), (.text "schema", .object [])]
  .object
    [(.text "components", .object
      [(.text "schemas", .object
        [(.text "api", .object
          [(.text "type", .text "object"),
            (.text "properties", .object
              [(.text "json", .object []), (.text "model_config", .object []),
                (.text "_json", .object []), (.text "1", .object [])])]),
          (.text "kind", .object
            [(.text "type", .text "string"),
              (.text "x-extensible-enum", .array [.text "other", .text "Other", .text "a b"])])])]),
      (.text "paths", .object
        [(.text "/x", .object
          [(.text "get", .object
            [(.text "operationId", .text "class"),
              (.text "parameters", .array [header "self", header "Self"])]),
            (.text "put", .object [(.text "operationId", .text "class_")])])])]

/-- The names of a module, scope by scope. -/
def namesOf (b : Bindings) : List (List String) :=
  (b.interfaceName :: b.definitions.map (·.name)) :: b.methods.map (·.name) ::
    (b.methods.map fun d => d.arguments.map (·.name)) ++
    b.definitions.filterMap fun d =>
      match d.body with
      | .record _ fields => some (fields.map (·.name))
      | .enumeration _ members other => some (other.toList ++ members.keys)
      | _ => none

set_option maxRecDepth 8000 in
/-- The clashes are resolved, and the module is well named. -/
theorem wellNamed_clashingDocument :
    ∃ m b, (run clashingDocument {} none).1 = .ok m ∧ Bindings.ofModel m true = .ok b ∧
      namesOf b =
        [["Api1", "Json", "ModelConfig", "ApiJson", "_1", "Api", "Kind", "Self", "Self1",
            "ClassResponse", "ClassResponse1"],
          ["class_", "class_1"], ["self1", "self2"], [],
          ["json_", "model_config_", "json_1", "field_1"], ["Other_", "Other", "Other1", "AB"]] ∧
      b.WellNamed m := by
  have hnames : ((run clashingDocument {} none).1.toOption.bind fun m =>
      (Bindings.ofModel m true).toOption.map namesOf) = some
        [["Api1", "Json", "ModelConfig", "ApiJson", "_1", "Api", "Kind", "Self", "Self1",
            "ClassResponse", "ClassResponse1"],
          ["class_", "class_1"], ["self1", "self2"], [],
          ["json_", "model_config_", "json_1", "field_1"],
          ["Other_", "Other", "Other1", "AB"]] := by
    decide +kernel
  cases hrun : (run clashingDocument {} none).1 with
  | error e =>
    rw [hrun] at hnames
    cases hnames
  | ok m =>
    rw [hrun] at hnames
    cases hrender : Bindings.ofModel m true with
    | error e =>
      rw [Except.toOption, Option.bind_some, hrender] at hnames
      cases hnames
    | ok b =>
      rw [Except.toOption, Option.bind_some, hrender] at hnames
      exact ⟨m, b, rfl, hrender, Option.some.inj hnames, wellNamed_of_run hrun hrender⟩

end Conversion

end TypedApi
