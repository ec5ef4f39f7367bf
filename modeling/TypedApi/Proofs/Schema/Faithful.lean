import TypedApi.Proofs.Schema.Denotation
/-!
Lowering is faithful.

Lowering a schema follows the reading of its tree, part by part: where a part
of the reading fails, the lowering of that part fails with a problem of the
same family, and where the reading answers with trees, the lowering appends
their nodes in post-order. What a model holds already decides names and places
and nothing else. The lemmas are written over the lowering of the schemas
inside, and the induction is on the bound of their nesting.
-/

set_option autoImplicit false

namespace TypedApi.Schema

open Build

variable {bounded : Bool} {paths : Table Int} {n : Nat} {lower : Lower} {read : Reading}

/-! ## What it is to hold a tree -/

/-- A reference was made for a tree, and the items that were appended for it are its nodes. -/
def Puts (paths : Table Int) (n : Nat) (new : List Item) (r : Ref) (tree : Tree) : Prop :=
  Tree.Flattens (leadsTo paths) n tree new r

/-- A shape was made for a form and some trees, and the items that were appended for it are the
nodes of the trees. -/
def Shapes (paths : Table Int) (n : Nat) (new : List Item) (shape : Shape)
    (p : Form × List Tree) : Prop :=
  formOf shape = p.1 ∧ Tree.FlattensAll (leadsTo paths) n p.2 new shape.refs

/-- An item was made for a tree and not added yet, and the items that were appended for it are the
nodes below its root. -/
def Makes (paths : Table Int) (n : Nat) (new : List Item) (item : Item) (tree : Tree) : Prop :=
  ∃ about form children, tree = .node about form children ∧ aboutOf item = about ∧
    formOf item.shape = form ∧ Tree.FlattensAll (leadsTo paths) n children new item.shape.refs

/-- No registered path is the address of a well-known schema. -/
def Internal (paths : Table Int) : Prop :=
  ∀ p ∈ paths, WellKnown.isExternal p.1 = false

/-- A content type that is a text or absent. -/
def Typed (contentType : Document) : Prop :=
  ∃ o, Plain (optionalText contentType) (.ok o)

/-- A way to lower schemas that follows a way to read them, whatever the names and the model. -/
def LowersAs (bounded : Bool) (paths : Table Int) (lower : Lower) (read : Reading) : Prop :=
  ∀ specName generatedName schema placement contentType n, Typed contentType →
    Follows bounded paths n (lower specName generatedName schema placement contentType)
      (read schema placement) (Makes paths n)

theorem typed_null : Typed .null :=
  ⟨none, .pure none⟩

/-- The root stands right after the nodes below it. -/
theorem Makes.puts {new : List Item} {item : Item} {tree : Tree} {name : String}
    (h : Makes paths n new item tree) :
    Puts paths n (new ++ [{ item with generatedName := name }]) (.back (n + new.length : Nat))
      tree := by
  obtain ⟨about, form, children, rfl, habout, hform, hchildren⟩ := h
  exact ⟨new, _, rfl, habout, hform, hchildren, rfl⟩

/-! ## The keywords -/

theorem plain_optionalText (d : Document) : Plain (optionalText d) (readOptional d) :=
  .ite (fun _ => .pure none) fun _ => .bind (.require _) fun s => .pure (some s)

theorem plain_textOrNull (d : Document) : Plain (textOrNull d) (readText d) := by
  refine .bind (plain_optionalText d) fun o => ?_
  cases o with
  | none => exact .pure _
  | some s => exact .pure _

theorem plain_blame {α : Type} (generatedName : String) (e : Except ShapeProblem α) :
    Plain (blame generatedName e) (classed e) := by
  cases e with
  | error p => exact .throw _
  | ok a => exact .pure a

theorem plain_schemaObject (specName : String) (schema : Document) :
    Plain (schemaObject specName schema) (readObject schema) := by
  cases schema with
  | object fields => exact .pure _
  | bool b =>
    cases b with
    | false => exact .problem _
    | true => exact .pure _
  | loop inObject =>
    cases inObject with
    | false => exact .problem _
    | true => exact .throw _
  | _ => exact .problem _

theorem plain_isSingleton (placement : Option Placement) (schema : Document) :
    Plain (isSingleton placement schema) (readSingleton placement schema) := by
  cases placement with
  | none => exact .pure _
  | some p =>
    refine .ite (fun _ => .pure _) fun _ => .bind (.require _) fun isRequired => ?_
    refine .ite (fun _ => .pure _) fun _ => ?_
    cases schema.find? "allOf" with
    | none => exact .pure _
    | some all =>
      cases all with
      | array entries =>
        match entries with
        | [] => exact .pure _
        | [entry] => exact .pure _
        | _ :: _ :: _ => exact .pure _
      | _ => exact .pure _

theorem plain_normalize (schema : Document) :
    Plain (normalize schema) (readNullable schema) := by
  unfold normalize readNullable
  cases schema.find? "type" with
  | none => exact .pure _
  | some type =>
    cases type with
    | array types =>
      dsimp only
      generalize (types.filter fun t => !t.isText "null") = others
      match others with
      | [] => exact .pure _
      | [t] => exact .pure _
      | _ :: _ :: _ => exact .problem _
    | _ => exact .pure _

theorem plain_requiredNames (schema : Document) :
    Plain (requiredNames schema) (readRequired schema) :=
  .bind (.require _) fun _ => .ite (fun _ => .pure _) fun _ => .throw _

theorem plain_mappingKey (mapping reference : Document) :
    Plain (mappingKey mapping reference) (readMapping mapping reference) :=
  .bind (.require _) fun _ => .pure _

/-- The names that a title gives are of no account. -/
theorem titled_follows {α β : Type} {R : List Item → α → β → Prop} {specName generatedName : String}
    {schema : Document} {f : String × String → Build α} {v : Except ProblemKind β}
    (hf : ∀ names, Follows bounded paths n (f names) v R) :
    Follows bounded paths n (titled specName generatedName schema >>= f)
      (readTitle schema >>= fun _ => v) R := by
  rw [titled, readTitle]
  -- a title must be a text, but which text it is matters for the names only
  by_cases htitle : ((schema.find? "title").getD .null).holds = true
  · rw [if_pos htitle, if_pos htitle, bind_assoc, bind_assoc]
    refine .plain (.require _) fun name => ?_
    rw [bind_assoc]
    exact .deconflict fun generated => hf (name, generated)
  · rw [if_neg htitle, if_neg htitle]
    exact hf (specName, generatedName)

/-- Where no documentation is fetched, it is the description. -/
theorem documentation_follows {α β : Type} {R : List Item → α → β → Prop} {specName : String}
    {schema : Document} {f : Document → Build α} {v : Except ProblemKind β}
    (hf : Follows bounded paths n (f ((schema.find? "description").getD .null)) v R) :
    Follows bounded paths n (documentation specName schema >>= f) v R := by
  constructor
  intro w hw
  -- without a fetcher there is nothing to ask, whatever else the schema says
  have hdocs : exec (documentation specName schema) w =
      (.ok ((schema.find? "description").getD .null), w) := by
    simp only [documentation, exec_bind_get, hw.offline]
    cases Document.holds _ <;> rfl
  rw [exec_bind_ok hdocs]
  exact hf.runs w hw

/-! ## References and inline schemas -/

/-- Lowering a schema and adding the item puts the tree of the schema. -/
theorem addInlineWith_follows (hl : LowersAs bounded paths lower read)
    (specName generatedName : String) (schema : Document) (placement : Option Placement)
    {contentType : Document} (hcontent : Typed contentType) :
    Follows bounded paths n
      (addInlineWith lower specName generatedName none schema placement contentType)
      (read schema placement) (Puts paths n) := by
  rw [← bind_pure (read schema placement)]
  refine .bind (hl _ _ _ _ _ n hcontent) fun item tree new hmakes => ?_
  refine Follows.addItem.weaken fun new' r tree' => ?_
  rintro ⟨rfl, rfl, name, rfl⟩
  exact hmakes.puts

/-- A scalar that is added puts a leaf. -/
theorem addScalar_follows (specName generatedName : String) (scalar : Scalar) :
    Follows bounded paths n (addScalar specName generatedName none scalar) (.ok (.leaf scalar))
      (Puts paths n) := by
  refine Follows.addItem.weaken fun new r tree => ?_
  rintro ⟨rfl, rfl, name, rfl⟩
  exact ⟨[], _, rfl, rfl, rfl, ⟨rfl, rfl⟩, rfl⟩

/-- **A schema that may be a reference**: a path is the index that it is registered for or a forward
reference, a well-known address is its scalar, and any other schema is put as its tree. -/
theorem convertWith_follows (hl : LowersAs bounded paths lower read) (hpaths : Internal paths)
    (specName generatedName : String) (schema : Document) (placement : Option Placement) :
    Follows bounded paths n (convertWith lower specName generatedName none schema placement)
      (readReferred read schema placement) (Puts paths n) := by
  refine .ite (fun _ => addInlineWith_follows hl _ _ _ _ typed_null) fun _ => ?_
  refine .plain (.require _) fun target => .model fun m _ hm _ => ?_
  rw [hm]
  cases hget : paths.get? target with
  | some index =>
    -- a registered path is no well-known address, so the reading has a leaf here too
    have hinternal := hpaths _ (Table.mem_of_get?_eq_some hget)
    rw [if_neg (by simpa using hinternal)]
    refine .pure ⟨rfl, ?_⟩
    rw [leadsTo, hget]
  | none =>
    dsimp only
    -- both sides ask the same question about an address that is not registered
    generalize (if WellKnown.isExternal target then WellKnown.find? target else none) = known
    cases known with
    | some scalar => exact addScalar_follows ..
    | none =>
      refine .pure ⟨rfl, ?_⟩
      rw [leadsTo, hget]

/-! ## Containers -/

/-- A shape with one reference holds one tree. -/
theorem Puts.shapes {new : List Item} {r : Ref} {tree : Tree} {shape : Shape} {form : Form}
    (h : Puts paths n new r tree) (hform : formOf shape = form) (hrefs : shape.refs = [r]) :
    Shapes paths n (new ++ []) shape (form, [tree]) := by
  refine ⟨hform, ?_⟩
  rw [hrefs]
  exact ⟨new, [], r, [], rfl, rfl, h, rfl, rfl⟩

/-- A shape without references holds no trees. -/
theorem shapes_nil {shape : Shape} {form : Form} (hform : formOf shape = form)
    (hrefs : shape.refs = []) : Shapes paths n [] shape (form, []) :=
  ⟨hform, rfl, hrefs⟩

/-- Runs of items, one after the other, are one for a list. -/
theorem flattensAll_of_chain {α β : Type} {R : Nat → List Item → α → β → Prop} {ref : α → Ref}
    {tree : β → Tree} {new : List Item} {as : List α} {bs : List β}
    (hR : ∀ n new a b, R n new a b → Puts paths n new (ref a) (tree b))
    (h : Follows.Chain R n new as bs) :
    Tree.FlattensAll (leadsTo paths) n (bs.map tree) new (as.map ref) := by
  induction as generalizing n new bs with
  | nil =>
    cases bs with
    | nil => exact ⟨h, rfl⟩
    | cons b bs => exact h.elim
  | cons a as ih =>
    cases bs with
    | nil => exact h.elim
    | cons b bs =>
      obtain ⟨first, rest, rfl, ha, hrest⟩ := h
      exact ⟨first, rest, ref a, as.map ref, rfl, rfl, hR _ _ _ _ ha, ih hrest⟩

/-- What two lists in a chain have in common at every place. -/
theorem map_eq_of_chain {α β γ : Type} {R : Nat → List Item → α → β → Prop} {f : α → γ}
    {g : β → γ} {new : List Item} {as : List α} {bs : List β}
    (hR : ∀ n new a b, R n new a b → f a = g b) (h : Follows.Chain R n new as bs) :
    as.map f = bs.map g := by
  induction as generalizing n new bs with
  | nil =>
    cases bs with
    | nil => rfl
    | cons b bs => exact h.elim
  | cons a as ih =>
    cases bs with
    | nil => exact h.elim
    | cons b bs =>
      obtain ⟨first, rest, rfl, ha, hrest⟩ := h
      rw [List.map_cons, List.map_cons, hR _ _ _ _ ha, ih hrest]

theorem arrayShape_follows (hl : LowersAs bounded paths lower read) (hpaths : Internal paths)
    (specName generatedName : String) (schema : Document) :
    Follows bounded paths n (arrayShape lower specName generatedName schema)
      (readArray read schema) (Shapes paths n) := by
  unfold arrayShape readArray
  extract_lets itemName items jp
  -- the item that the elements get is put before the shape of the array is made
  have hjp : ∀ r tree new, Puts paths n new r tree →
      Follows bounded paths (n + new.length) (jp r)
        (.ok (if ((schema.find? "uniqueItems").getD .null).holds then .set else .list, [tree]))
        fun new' shape p => Shapes paths n (new ++ new') shape p := by
    intro r tree new hputs
    simp only [jp]
    by_cases hunique : ((schema.find? "uniqueItems").getD .null).holds = true
    · rw [if_pos hunique, if_pos hunique]
      exact .pure (hputs.shapes rfl rfl)
    · rw [if_neg hunique, if_neg hunique]
      exact .pure (hputs.shapes rfl rfl)
  by_cases hitems : items.isNull = true
  · rw [if_pos hitems, if_pos hitems]
    exact .bind (addScalar_follows ..) hjp
  · rw [if_neg hitems, if_neg hitems]
    exact .bind (convertWith_follows hl hpaths ..) hjp

/-- What a member has in common with a field, and its tree. -/
def Matches (paths : Table Int) (n : Nat) (new : List Item) (member : String × Member)
    (field : Field × Tree) : Prop :=
  ({ name := member.1
     readOnly := member.2.readOnly
     writeOnly := member.2.writeOnly
     inlineOption := member.2.inlineOption } : Field) = field.1 ∧
    Puts paths n new member.2.definition field.2

theorem memberOf_follows (hl : LowersAs bounded paths lower read) (hpaths : Internal paths)
    (generatedName : String) (schema : Document) (required : List Document)
    (property : Document × Document) :
    Follows bounded paths n (memberOf lower generatedName schema required property)
      (readMember read schema required property) (Matches paths n) := by
  obtain ⟨key, declared⟩ := property
  refine .plain (.require _) fun name => .model fun m _ _ _ => .deconflict fun ident => ?_
  refine .bind (convertWith_follows hl hpaths ..) fun r tree new hputs => .pure ⟨rfl, ?_⟩
  simpa using hputs

theorem objectShape_follows (hl : LowersAs bounded paths lower read) (hpaths : Internal paths)
    (specName generatedName : String) (schema : Document) :
    Follows bounded paths n (objectShape lower specName generatedName schema)
      (readFields read schema) (Shapes paths n) := by
  unfold objectShape
  extract_lets properties additional jp
  rw [readFields]
  have hadditional : furtherFields schema = additional := rfl
  rw [hadditional]
  clear_value additional
  by_cases hboth : (properties.holds && !additional.isNull) = true
  · rw [if_pos hboth, if_pos hboth]
    exact .throw
  · rw [if_neg hboth, if_neg hboth]
    simp only [jp]
    cases additional with
    | null =>
      refine .plain (plain_requiredNames _) fun required => .plain (.require _) fun fields => ?_
      -- the properties are lowered in order, and the items of each stand after those before
      refine .bind (Follows.mapM fun property _ n => memberOf_follows hl hpaths ..)
        fun members read new hchain => .pure ⟨?_, ?_⟩
      · exact congrArg Form.object (map_eq_of_chain (fun _ _ _ _ h => h.1) hchain)
      · rw [List.append_nil]
        exact flattensAll_of_chain (fun _ _ _ _ h => h.2) hchain
    | bool b =>
      cases b with
      | false => exact .problem
      | true => exact .pure (shapes_nil rfl rfl)
    | object fields =>
      cases fields with
      | nil => exact .pure (shapes_nil rfl rfl)
      | cons f fs =>
        exact .bind (convertWith_follows hl hpaths ..) fun r tree new hputs =>
          .pure (hputs.shapes rfl rfl)
    | _ => exact .problem

/-! ## Unions -/

/-- What a variant has in common with a tag, and its tree. -/
def Stands (paths : Table Int) (n : Nat) (new : List Item) (v : Variant)
    (p : Option String × Tree) : Prop :=
  v.mappingName = p.1 ∧ Puts paths n new v.definition p.2

theorem variantOf_follows (hl : LowersAs bounded paths lower read) (hpaths : Internal paths)
    (specName generatedName : String) (mapping alternative : Document) :
    Follows bounded paths n (variantOf lower specName generatedName mapping alternative)
      (readVariant read mapping alternative) (Stands paths n) := by
  unfold variantOf readVariant
  extract_lets reference jp
  have hjp : ∀ key, Follows bounded paths n (jp key)
      (readReferred read alternative none >>= fun tree =>
        readOptional key >>= fun tag => .ok (tag, tree)) (Stands paths n) := by
    intro key
    refine .bind (convertWith_follows hl hpaths ..) fun r tree new hputs => ?_
    refine .plain (plain_optionalText _) fun tag => .pure ⟨rfl, ?_⟩
    simpa using hputs
  by_cases hreference : reference.isNull = true
  · rw [if_pos hreference, if_pos hreference]
    exact hjp _
  · rw [if_neg hreference, if_neg hreference]
    exact .plain (plain_mappingKey _ _) hjp

theorem oneOfShape_follows (hl : LowersAs bounded paths lower read) (hpaths : Internal paths)
    (specName generatedName : String) (schema : Document) :
    Follows bounded paths n (oneOfShape lower specName generatedName schema)
      (readUnion read schema) (Shapes paths n) := by
  refine .plain (.field _ _) fun discriminant => .plain (.field _ _) fun mapping => ?_
  refine .plain (.require _) fun alternatives => ?_
  refine .bind (Follows.mapM fun alternative _ n => variantOf_follows hl hpaths ..)
    fun variants read new hchain => ?_
  refine .plain (plain_optionalText _) fun name => .pure ⟨?_, ?_⟩
  · exact congrArg (Form.oneOf name) (map_eq_of_chain (fun _ _ _ _ h => h.1) hchain)
  · rw [List.append_nil]
    exact flattensAll_of_chain (fun _ _ _ _ h => h.2) hchain

theorem overrideShape_follows (hl : LowersAs bounded paths lower read) (hpaths : Internal paths)
    (specName generatedName : String) (schema : Document) :
    Follows bounded paths n (overrideShape lower specName generatedName schema)
      (readOverride read schema) (Shapes paths n) := by
  -- what is done with the first entry of the `allOf`, on either side
  have hentry : ∀ entry, Follows bounded paths n
      (do
        let target ← convertWith lower specName generatedName none entry none
        let flag := fun keyword => ((schema.find? keyword).getD .null).holds
        let title ← optionalText ((schema.find? "title").getD .null)
        let description ← optionalText ((schema.find? "description").getD .null)
        return .override (flag "readOnly") (flag "writeOnly") title description target)
      (do
        let target ← readReferred read entry none
        let flag := fun keyword => ((schema.find? keyword).getD .null).holds
        let title ← readOptional ((schema.find? "title").getD .null)
        let description ← readOptional ((schema.find? "description").getD .null)
        .ok (.override (flag "readOnly") (flag "writeOnly") title description, [target]))
      (Shapes paths n) := by
    intro entry
    refine .bind (convertWith_follows hl hpaths ..) fun r tree new hputs => ?_
    refine .plain (plain_optionalText _) fun title => ?_
    refine .plain (plain_optionalText _) fun description => ?_
    exact .pure (hputs.shapes rfl rfl)
  unfold overrideShape readOverride
  extract_lets flag jp
  cases schema.find? "allOf" with
  | none => exact .throw
  | some all =>
    cases all with
    | array entries =>
      cases entries with
      | nil => exact .throw
      | cons entry rest => exact hentry entry
    | _ => exact .throw

/-! ## Dispatch -/

theorem stringShape_follows (generatedName : String) (schema : Document) (nullable : Bool) :
    Follows bounded paths n (stringShape generatedName schema nullable)
      (readString schema nullable) (Shapes paths n) := by
  rw [stringShape, readString]
  cases henum : enumeration schema nullable with
  | error p => exact .throw
  | ok o =>
    cases o with
    | some shape =>
      obtain ⟨variants, extensible, rfl⟩ := shape_of_enumeration henum
      exact .pure (shapes_nil rfl rfl)
    | none =>
      show Follows bounded paths n
        (require (Scalar.ofFormat? ((schema.find? "format").getD .null)) >>= fun scalar =>
          pure (Shape.scalar scalar))
        (need (Scalar.ofFormat? ((schema.find? "format").getD .null)) >>= fun scalar =>
          .ok (Form.scalar scalar, [])) _
      exact .plain (.require _) fun scalar => .pure (shapes_nil rfl rfl)

/-- The types that are known; null stands for no type at all. -/
def knownTypes : List Document :=
  [.text "boolean", .text "number", .text "integer", .text "string", .text "array",
    .text "object", .text "null", .null]

/-- A schema of any other type is refused. -/
theorem typedShape_of_unknown {specName generatedName : String} {schema : Document}
    {nullable : Bool} (h : typeOf schema ∉ knownTypes) :
    typedShape lower specName generatedName schema nullable =
      problem (.schema (.unknownType (typeOf schema)) (some specName)) := by
  unfold typedShape
  split
  all_goals first
    | rfl
    | rename_i htype; exact (h (by simp [typeOf, knownTypes, htype])).elim

/-- A schema of any other type has no tree. -/
theorem readTyped_of_unknown {schema : Document} {nullable : Bool}
    (h : typeOf schema ∉ knownTypes) :
    readTyped bounded read schema nullable = .error .schema := by
  unfold readTyped
  split
  all_goals first
    | rfl
    | rename_i htype; exact (h (by simp [typeOf, knownTypes, htype])).elim

theorem typedShape_follows (hl : LowersAs bounded paths lower read) (hpaths : Internal paths)
    (specName generatedName : String) (schema : Document) (nullable : Bool) :
    Follows bounded paths n (typedShape lower specName generatedName schema nullable)
      (readTyped bounded read schema nullable) (Shapes paths n) := by
  by_cases hknown : typeOf schema ∈ knownTypes
  · simp only [knownTypes, typeOf, List.mem_cons, List.not_mem_nil, or_false] at hknown
    unfold typedShape readTyped
    -- with the type at hand, both sides reduce to what they do for it
    rcases hknown with h | h | h | h | h | h | h | h
    · rw [h]
      exact .pure (shapes_nil rfl rfl)
    · rw [h]
      exact .plain (plain_blame _ _) fun scalar => .pure (shapes_nil rfl rfl)
    · rw [h]
      refine .model fun m hm _ _ => ?_
      rw [hm]
      refine .plain (plain_blame _ _) fun reading => ?_
      extract_lets jp
      -- the remark about exclusive bounds that are ignored has no part in the scalar
      have hjp : Follows bounded paths n (jp ()) (.ok (.scalar reading.scalar, []))
          (Shapes paths n) :=
        .pure (shapes_nil rfl rfl)
      split
      · exact .note hjp
      · exact hjp
    · rw [h]
      exact stringShape_follows ..
    · rw [h]
      exact arrayShape_follows hl hpaths ..
    · rw [h]
      exact objectShape_follows hl hpaths ..
    · rw [h]
      exact .pure (shapes_nil rfl rfl)
    · rw [h]
      exact .pure (shapes_nil rfl rfl)
  · rw [typedShape_of_unknown hknown, readTyped_of_unknown hknown]
    exact .problem

theorem shapeOf_follows (hl : LowersAs bounded paths lower read) (hpaths : Internal paths)
    (specName generatedName : String) (schema : Document) (nullable singleton : Bool) :
    Follows bounded paths n (shapeOf lower specName generatedName schema nullable singleton)
      (readForm bounded read schema nullable singleton) (Shapes paths n) := by
  refine .ite (fun _ => .problem) fun _ => ?_
  refine .ite (fun _ => oneOfShape_follows hl hpaths ..) fun _ => ?_
  refine .ite (fun _ => ?_) fun _ => typedShape_follows hl hpaths ..
  exact .ite (fun _ => overrideShape_follows hl hpaths ..) fun _ => .problem

/-- **A nullable schema is an alias**: its item without null is added, and the alias refers to
it. -/
theorem wrapNullable_follows {item : Item} {form : Form} {children : List Tree} {new : List Item}
    {m : Nat} (hm : m = n + new.length) (hshape : Shapes paths n new item.shape (form, children)) :
    Follows bounded paths m (wrapNullable item)
      (.ok (.node { docs := item.docs, nullable := true } .synonym
        [.node (aboutOf item) form children]))
      fun new' outer tree => Makes paths n (new ++ new') outer tree := by
  subst hm
  have hmakes : Makes paths n new item (.node (aboutOf item) form children) :=
    ⟨_, _, _, rfl, rfl, hshape.1, hshape.2⟩
  refine Follows.bind (v := .ok ()) (g := fun _ => .ok _) Follows.addItem fun r _ added hadded => ?_
  obtain ⟨-, rfl, name, rfl⟩ := hadded
  -- the alias takes a name made from that of the item just added, and refers to the item
  refine .nameOf (by simp) fun innerName => .deconflict fun outerName => .pure ?_
  refine ⟨_, _, _, rfl, rfl, rfl, ?_⟩
  rw [List.append_nil]
  exact ⟨_, [], _, [], (List.append_nil _).symm, rfl, hmakes.puts, rfl, rfl⟩

theorem lowerWith_follows (hl : LowersAs bounded paths lower read) (hpaths : Internal paths) :
    LowersAs bounded paths (lowerWith lower) (readWith bounded read) := by
  intro specName generatedName schema placement contentType n hcontent
  refine .plain (plain_schemaObject _ _) fun object => ?_
  refine .plain (plain_isSingleton _ _) fun singleton => ?_
  refine .plain (plain_normalize _) fun ⟨schema, nullable⟩ => titled_follows fun names => ?_
  refine .bind (shapeOf_follows hl hpaths ..) fun shape p new hshape => ?_
  refine documentation_follows (.plain (plain_textOrNull _) fun docs => ?_)
  -- the content type is read last, so a bad one would spoil a schema that is fine otherwise
  obtain ⟨o, ho⟩ := hcontent
  refine Follows.plain (v := .ok o) (g := fun _ => .ok _) ho fun contentType => ?_
  obtain ⟨form, children⟩ := p
  by_cases hnullable : nullable = true
  · rw [if_pos hnullable, if_pos hnullable]
    exact wrapNullable_follows rfl hshape
  · rw [if_neg hnullable, if_neg hnullable]
    refine .pure ⟨_, _, _, rfl, rfl, hshape.1, ?_⟩
    rw [List.append_nil]
    exact hshape.2

/-! ## Schemas of any depth -/

theorem lowerNested_follows (hpaths : Internal paths) (bound : Nat) :
    LowersAs bounded paths (lowerNested bound) (readNested bounded bound) := by
  induction bound with
  | zero => exact fun _ _ _ _ _ _ _ => .throw
  | succ bound ih => exact lowerWith_follows ih hpaths

/-- **Lowering follows the tree of the schema.** -/
theorem lower_follows (hpaths : Internal paths) :
    LowersAs bounded paths Schema.lower (treeOf bounded) :=
  fun _ _ _ _ _ _ hcontent => lowerNested_follows hpaths _ _ _ _ _ _ _ hcontent

/-- **Lowering a schema is faithful, and what comes of it does not depend on the model.** On every
model that is not finished and has only paths of the document registered, lowering a schema and
adding its item fails with a problem of the family that the schema has, or the schema denotes a tree
and its nodes are appended to the model in post-order, as many items as nodes. The reference that is
answered unfolds to the tree. -/
theorem addInline_faithful (w : Workbench) (specName generatedName : String) (schema : Document)
    (placement : Option Placement) (contentType : Option String)
    (hopen : w.model.finalized = false) (hdocs : w.docs = none)
    (hpaths : ∀ p ∈ w.model.namedReferences, WellKnown.isExternal p.1 = false) :
    let run := exec (addInline specName generatedName none schema placement
      (contentType.elim .null .text)) w
    (∀ kind, treeOf w.model.boundedIntegers schema placement = .error kind →
      ∃ e, run.1 = .error e ∧ e.problem.kind = kind) ∧
    ∀ tree, treeOf w.model.boundedIntegers schema placement = .ok tree →
      Spells w.model.boundedIntegers schema tree ∧
      ∃ r new, run.1 = .ok r ∧
        run.2.model = { w.model with
          definitions := w.model.definitions ++ new
          items := run.2.model.items } ∧
        new.length = tree.nodes ∧
        Tree.Flattens (leadsTo w.model.namedReferences) w.model.size tree new r ∧
        Tree.Unfolds (leadsTo w.model.namedReferences) run.2.model.definitions tree r := by
  intro run
  have hcontent : Typed (contentType.elim .null .text) := by
    cases contentType with
    | none => exact typed_null
    | some s => exact ⟨some s, .bind (.require (some s)) fun s => .pure (some s)⟩
  have hready : Ready w.model.boundedIntegers w.model.namedReferences w.model.size w :=
    ⟨hopen, rfl, rfl, rfl, hdocs⟩
  obtain ⟨herror, hok⟩ := (addInlineWith_follows (lower_follows hpaths) specName generatedName
    schema placement hcontent).runs w hready
  refine ⟨herror, fun tree htree => ⟨spells_of_treeOf htree, ?_⟩⟩
  obtain ⟨r, new, hr, happends, hputs⟩ := hok tree htree
  refine ⟨r, new, hr, happends.model, hputs.length_eq, hputs, ?_⟩
  -- the items stand at the end of the model, with nothing after them yet
  have hdefinitions : run.2.model.definitions = w.model.definitions ++ new ++ [] := by
    rw [List.append_nil]
    exact congrArg Model.definitions happends.model
  rw [hdefinitions]
  exact Tree.Flattens.unfolds [] hputs

/-- A workbench whose model holds one item already. -/
def petBench : Workbench :=
  { model :=
    { definitions := [{ generatedName := "Pet" }]
      items := [("Pet", 0)]
      namedReferences := [("#/components/schemas/Pet", 0)] } }

/-- An object with a reference, and with a text that may be null. -/
def petSchema : Document :=
  .object
    [(.text "title", .text "pet"),
      (.text "required", .array [.text "parent"]),
      (.text "properties", .object
        [(.text "parent", .object [(.text "$ref", .text "#/components/schemas/Pet")]),
          (.text "tag", .object
            [(.text "type", .text "string"), (.text "nullable", .bool true)])])]

set_option maxRecDepth 2000 in
/-- A text that may be null counts twice, a reference does not count, and a name that is taken is
no obstacle. -/
theorem addInline_petSchema :
    ∃ tree r new, treeOf true petSchema none = .ok tree ∧
      (exec (addInline "pet" "Pet" none petSchema none .null) petBench).1 = .ok r ∧
      (exec (addInline "pet" "Pet" none petSchema none .null) petBench).2.model.definitions =
        petBench.model.definitions ++ new ∧ new.length = 3 ∧
      Tree.Unfolds (leadsTo petBench.model.namedReferences) (petBench.model.definitions ++ new)
        tree r := by
  have hpaths : ∀ p ∈ petBench.model.namedReferences, WellKnown.isExternal p.1 = false := by
    decide
  obtain ⟨tree, htree, hnodes⟩ :
      ∃ tree, treeOf true petSchema none = .ok tree ∧ tree.nodes = 3 := by
    refine ⟨_, rfl, ?_⟩
    rfl
  obtain ⟨_, r, new, hr, hmodel, hlength, _, hunfolds⟩ :=
    (addInline_faithful petBench "pet" "Pet" petSchema none none rfl rfl hpaths).2 tree htree
  have hdefinitions := congrArg Model.definitions hmodel
  rw [hdefinitions] at hunfolds
  exact ⟨tree, r, new, htree, hr, hdefinitions, hlength.trans hnodes, hunfolds⟩

end TypedApi.Schema
