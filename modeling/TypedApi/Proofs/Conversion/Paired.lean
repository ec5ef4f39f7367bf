import TypedApi.Proofs.Conversion.Appending
import TypedApi.Proofs.Operation.Paired
/-!
Nullable schemas and their pairs.

Where a schema admits null, two items are stored one right after the other: what
the schema is without null, and an alias that admits null, names the other item and
leads to it. The alias has the name as a text and the place as an index, and the two
agree when it is stored. From then on neither can come to contradict the other: an
item keeps its name and its place, and only what is said about it is changed later.
So every model on the way of a construction is paired, and so is the finished one.
-/

set_option autoImplicit false

namespace TypedApi

open Build

/-! ## Pairs at other times -/

theorem Item.Stays.symm {a b : Item} (h : a.Stays b) : b.Stays a where
  generatedName := h.generatedName.symm
  specName := h.specName.symm
  innerName := h.innerName.symm
  nullable := h.nullable.symm
  newtype := h.newtype.symm
  contentType := h.contentType.symm

/-- A pair is one at any time at which its alias leads to the same place. -/
theorem Item.Wraps.stays {outer outer' inner inner' : Item} {j : Nat} (h : outer.Wraps inner j)
    (houter : outer.Stays outer') (hinner : inner.Stays inner')
    (hshape : ∃ r, outer'.shape = .synonym r ∧ r.index? = some (j : Int)) :
    outer'.Wraps inner' j where
  innerName := by
    rw [houter.innerName, hinner.generatedName]
    exact h.innerName
  nullable := houter.nullable.trans h.nullable
  synonym := hshape
  inner_nullable := hinner.nullable.trans h.inner_nullable
  inner_innerName := hinner.innerName.trans h.inner_innerName

theorem Item.Stays.isOuter_eq {a b : Item} (h : a.Stays b) : b.isOuter = a.isOuter := by
  rw [Item.isOuter, Item.isOuter, h.innerName]

/-- An alias that holds the index of an item is one in a finished model as well. -/
theorem Shape.Settles.synonym {m : Model} {shape shape' : Shape} {j : Nat}
    (h : Shape.Settles m shape shape')
    (hshape : ∃ r, shape = .synonym r ∧ r.index? = some (j : Int)) :
    ∃ r, shape' = .synonym r ∧ r.index? = some (j : Int) := by
  obtain ⟨g, hg, hsettled⟩ := h
  obtain ⟨r, rfl, hr⟩ := hshape
  obtain ⟨index, hindex, hresolved⟩ := hg r (by simp [Shape.refs])
  -- the reference is no path, so it leads to the index that it holds
  have hsame : index = (j : Int) := by
    cases r with
    | forward path => cases hr
    | back i | resolved i =>
      cases hr
      rw [Model.indexOf] at hindex
      split at hindex
      · exact (Except.ok.inj hindex).symm
      · cases hindex
  have hrelocated : shape'.unnamed = .synonym (.resolved j) := by
    rw [hsettled, ← hsame, ← hresolved]
    simp [Shape.relocate, Shape.unnamed]
  refine ⟨.resolved j, ?_, rfl⟩
  cases shape' with
  | synonym r' => exact hrelocated
  | _ => cases hrelocated

namespace Model

variable {m m' : Model}

/-- A model from which steps lead to a paired one is paired: the items of a pair were stored in
their places, one before the other. -/
theorem Paired.of_steps {S : Standard} (h : m'.Paired) (hsteps : Steps S m m') : m.Paired := by
  have hsame : ∀ (i : Nat) (item : Item), m.definitions[i]? = some item →
      ∃ item' : Item, m'.definitions[i]? = some item' ∧ item.Stays item' ∧
        item'.shape = item.shape := by
    intro i item hitem
    obtain ⟨item', hitem', hstays, hshape⟩ := hsteps.kept.definitions i item hitem
    refine ⟨item', hitem', hstays, ?_⟩
    rcases hshape with ⟨_, heq⟩ | ⟨hopen, hfinal, _⟩
    · exact heq
    · rw [hsteps.finalized_eq, hopen] at hfinal
      cases hfinal
  intro i outer houter hnames
  obtain ⟨outer', houter', hstays, hshape⟩ := hsame i outer houter
  rw [← hstays.isOuter_eq] at hnames
  obtain ⟨j, inner', hj, hinner', hwraps⟩ := h i outer' houter' hnames
  -- the item before this one is there already
  have hlt : j < m.definitions.length := by
    have hi := (List.getElem?_eq_some_iff.mp houter).1
    omega
  obtain ⟨inner'', hinner'', hbefore, _⟩ := hsame j _ (List.getElem?_eq_getElem hlt)
  cases hinner'.symm.trans hinner''
  refine ⟨j, m.definitions[j], hj, List.getElem?_eq_getElem hlt, ?_⟩
  apply hwraps.stays hstays.symm hbefore.symm
  rw [← hshape]
  exact hwraps.synonym

/-- A model that is finished stays paired. -/
theorem Paired.of_finish (hm : m.Paired) (h : m.finish = (m', none)) : m'.Paired := by
  obtain ⟨hopen, hdefinitions⟩ := definitions_finish h
  have hkept := kept_of_finish h
  intro i outer' houter' hnames
  have hlt : i < m.definitions.length := by
    have hi := (List.getElem?_eq_some_iff.mp houter').1
    rwa [hdefinitions, List.length_map] at hi
  obtain ⟨outer'', houter'', hstays, hshape⟩ :=
    hkept.definitions i _ (List.getElem?_eq_getElem hlt)
  cases houter'.symm.trans houter''
  rw [hstays.isOuter_eq] at hnames
  obtain ⟨j, inner, hj, hinner, hwraps⟩ := hm i _ (List.getElem?_eq_getElem hlt) hnames
  obtain ⟨inner', hinner', hbefore, _⟩ := hkept.definitions j inner hinner
  refine ⟨j, inner', hj, hinner', hwraps.stays hstays hbefore ?_⟩
  rcases hshape with ⟨_, heq⟩ | ⟨_, _, hsettles⟩
  · rw [heq]
    exact hwraps.synonym
  · exact hsettles.synonym hwraps.synonym

/-- It has as many pairs as before. -/
theorem pairs_of_finish (h : m.finish = (m', none)) : m'.pairs = m.pairs := by
  have hsame : ∀ (nameOf : Ref → Except Failure (Option String)) (g : Ref → Ref) (item : Item),
      (nameItem nameOf (item.relocate g)).1.isOuter = item.isOuter := by
    intro nameOf g item
    rw [nameItem]
    split <;> rfl
  rw [pairs, pairs, (definitions_finish h).2, List.countP_map]
  exact congrArg (m.definitions.countP ·) (funext fun item => hsame _ _ item)

end Model

namespace Conversion

/-! ## Conversions -/

theorem publish_paired (r : Ref) : Keeps Model.StaysPaired (publish r) :=
  .remarkOn r Operation.remark_pubTypedef

theorem insertSchema_paired (entry : Document × Document) :
    Keeps Model.StaysPaired (insertSchema entry) := by
  refine .bind (.skip (.require _) fun specName => ?_) publish_paired
  refine .ite (Schema.addInline_pairs ..).keeps (.skip (.require _) fun target => .ite ?_ ?_)
  · exact .skip (.note _) fun _ => .addPlainScalar
  · exact (Schema.convert_pairs ..).keeps.bind fun _ => .skip (.textOrNull _) fun _ => .addPlain rfl

theorem insertParameter_paired (entry : Document × Document) :
    Keeps Model.StaysPaired (insertParameter entry) :=
  (Operation.allows_paired.insertComponentParameter _ trivial).bind publish_paired

theorem insertBody_paired (entry : Document × Document) :
    Keeps Model.StaysPaired (insertBody entry) := by
  obtain ⟨key, body⟩ := entry
  refine .skip (.require _) fun _ => ?_
  split
  · exact (Keeps.namedBy _).bind fun r => .pathOf _ r
  · refine .skip (.require _) fun specName => (Operation.createBody_pairs ..).keeps.bind fun r => ?_
    exact (publish_paired r).bind fun _ => .remarkOn r (Operation.remark_orDocs _)

theorem insertResponse_paired (document : Document) (entry : Document × Document) :
    Keeps Model.StaysPaired (insertResponse document entry) := by
  obtain ⟨key, response⟩ := entry
  have hshare : ∀ path variants, Keeps Model.StaysPaired
      (modifyModel fun m => m.withShared path variants) :=
    fun _ _ => .modifyModel_definitions fun _ => rfl
  refine .skip (.require _) fun _ => ?_
  split
  · exact .skip (Operation.still_cachedVariantsBy _) fun _ => hshare ..
  · refine .skip (.require _) fun specName => ?_
    exact (Operation.allows_paired.createVariants
      (Operation.allows_paired.convertHeader (fun _ _ => trivial) _) ..).bind fun _ => hshare ..

theorem insertHeader_paired (document : Document) (entry : Document × Document) :
    Keeps Model.StaysPaired (insertHeader document entry) :=
  (Operation.allows_paired.insertComponentHeader (fun _ _ => trivial) _ trivial).bind
    fun _ => .pure _

/-- **A construction leaves pairs in order**, whether it answers or fails. -/
theorem construct_paired (document : Document) :
    Keeps Model.StaysPaired (construct document) := by
  refine .skip (.field _ _) fun _ => .skip (steady_section? _ _).still fun schemas => ?_
  refine (Keeps.forM fun entry _ => insertSchema_paired entry).bind fun _ => ?_
  refine .skip (.note _) fun _ => .skip (steady_section? _ _).still fun parameters => ?_
  refine (Keeps.forM fun entry _ => insertParameter_paired entry).bind fun _ => ?_
  refine .skip (steady_section? _ _).still fun bodies => ?_
  refine (Keeps.forM fun entry _ => insertBody_paired entry).bind fun _ => ?_
  refine .skip (steady_section? _ _).still fun responses => ?_
  refine (Keeps.forM fun entry _ => insertResponse_paired document entry).bind fun _ => ?_
  refine .skip (steady_section? _ _).still fun headers => ?_
  refine (Keeps.forM fun entry _ => insertHeader_paired document entry).bind fun _ => ?_
  refine (Operation.insertAll_paired document).bind fun _ => .model fun m => ?_
  exact .skip (.note _) fun _ => .pure _

/-- **Every item that names another is one of a pair, and every schema that admits null makes one
pair.** A construction takes one step after the other, whether it answers or fails in the end, and
every model from which steps lead to the one that it leaves is paired, so every model on its way
is. A finished model is paired as well, and has the same number of pairs.

Lowering a schema makes a pair for each nullable schema that is written out in it, and one for
itself exactly if it is nullable. The alias of that one is left to be stored, and fits the end of
the model that lowering leaves; it counts whether it is stored as it is, or by a request body that
says first whether it may be left out. -/
theorem nullables_paired (document : Document) (options : ConversionOptions)
    (docs : Option Docs.Fetcher) :
    let constructed := (exec (construct document) (start options docs)).2.model
    Steps .anything (start options docs).model constructed ∧
    (∀ m, Steps .anything m constructed → m.Paired) ∧
    (∀ m', (run document options docs).1 = .ok m' →
      m'.Paired ∧ m'.pairs = constructed.pairs) ∧
    (∀ bound specName generatedName schema placement contentType,
      MakesPairs (Schema.nullables bound schema)
        (Schema.lowerNested bound specName generatedName schema placement contentType) some ∧
      (∀ path, MakesPairs (Schema.nullables bound schema)
        (Schema.addInlineWith (Schema.lowerNested bound) specName generatedName path schema
          placement contentType)) ∧
      ∀ w item w', exec (Schema.lowerNested bound specName generatedName schema placement
          contentType) w = (.ok item, w') →
        ∃ typed, Schema.Normalizes schema typed item.isOuter) ∧
    ∀ specName path body, MakesPairs (Operation.nullablesOf (Operation.bodySchemas body))
      (Operation.createBody specName path body) := by
  intro constructed
  have hsteps : Steps .anything (start options docs).model constructed :=
    ((construct_along document).runs (Call.sound_anything _) _ rfl).1
  have hpaired : constructed.Paired :=
    (construct_paired document).runs _ (Model.paired_of_definitions_eq_nil rfl)
  refine ⟨hsteps, fun m hm => hpaired.of_steps hm, fun m' hrun => ?_, ?_,
    fun specName path body => Operation.createBody_pairs specName path body⟩
  · obtain ⟨w, hconstruct, hfinish⟩ := run_eq_ok_iff.mp hrun
    have hmodel : constructed = w.model := congrArg (fun p => p.2.model) hconstruct
    rw [← hmodel] at hfinish
    exact ⟨hpaired.of_finish hfinish, Model.pairs_of_finish hfinish⟩
  · intro bound specName generatedName schema placement contentType
    have hlower := Schema.lowerNested_pairs bound
    refine ⟨hlower .., fun path => Schema.addInlineWith_pairs hlower .., fun w item w' h => ?_⟩
    cases bound with
    | zero => cases h
    | succ bound => exact Schema.isOuter_of_exec_lowerWith h

/-- A note that may be null, with a text that may be null. -/
def noteSchema : Document :=
  .object
    [(.text "type", .array [.text "object", .text "null"]),
      (.text "properties", .object
        [(.text "tag", .object
          [(.text "type", .text "string"), (.text "nullable", .bool true)])])]

/-- A document with the note, and with a body that may be left out and carries one. -/
def noteDocument : Document :=
  .object
    [(.text "components", .object
      [(.text "schemas", .object [(.text "Note", noteSchema)]),
        (.text "requestBodies", .object
          [(.text "Draft", .object
            [(.text "content", .object
              [(.text "application/json", .object [(.text "schema", noteSchema)])])])])])]

/-- The note makes two pairs wherever it is written out. -/
theorem noteDocument_paired :
    ∃ m', (run noteDocument {} none).1 = .ok m' ∧ m'.Paired ∧ m'.pairs = 4 ∧
      Schema.nullablesIn noteSchema = 2 ∧ ∃ typed, Schema.Normalizes noteSchema typed true := by
  have hpairs : ((run noteDocument {} none).1.toOption.map Model.pairs) = some 4 := by
    decide +kernel
  have hanswer : (exec (Schema.lowerNested 3 "Note" "Note" noteSchema none .null)
      (start {} none)).1.toOption.map Item.isOuter = some true := by
    decide +kernel
  obtain ⟨m', hrun, hfour⟩ := exists_of_toOption_map hpairs
  obtain ⟨item, hitem, houter⟩ := exists_of_toOption_map hanswer
  obtain ⟨_, _, hfinished, hlowered, _⟩ := nullables_paired noteDocument {} none
  have hnormal := (hlowered 3 "Note" "Note" noteSchema none .null).2.2 (start {} none) item _
    (Prod.ext hitem rfl)
  rw [houter] at hnormal
  exact ⟨m', hrun, (hfinished m' hrun).1, hfour, by decide +kernel, hnormal⟩

end Conversion

end TypedApi
