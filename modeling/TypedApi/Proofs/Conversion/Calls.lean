import TypedApi.Proofs.Conversion.Steps
import TypedApi.Proofs.Graph.Finish
import TypedApi.Proofs.Name.Safe
/-!
Any order of calls keeps the index of names exact.

A model may be worked on by any sequence of calls with any arguments, and a
call that fails leaves behind what it had done. Whatever the sequence, the
index holds the generated name of every item with its position, in order, the
names are pairwise distinct, and every one of them is safe. Only two things
touch names: a step that adds an item takes a safe name that is free, and
finishing keeps all names.
-/

set_option autoImplicit false

namespace TypedApi

open Build

/-! ## The index of names -/

/-- The generated names of the items, in order. -/
def Model.names (m : Model) : List String :=
  m.definitions.map Item.generatedName

/-- The index of names is exact: it holds every generated name with its position, in order, no name
is given twice, and every name is safe. -/
structure Model.Indexed (m : Model) : Prop where
  items : m.items = m.names.zipIdx
  nodup : m.names.Nodup
  safe : ∀ name ∈ m.names, Name.Safe name

variable {m m' : Model}

theorem Model.indexed_empty (bounded : Bool) :
    Model.Indexed { boundedIntegers := bounded } :=
  ⟨rfl, List.nodup_nil, by simp [names]⟩

/-- The index is about names and itself only. -/
theorem Model.Indexed.congr (h : m.Indexed) (hitems : m'.items = m.items)
    (hnames : m'.names = m.names) : m'.Indexed := by
  refine ⟨?_, ?_, ?_⟩
  · rw [hitems, hnames]
    exact h.items
  · rw [hnames]
    exact h.nodup
  · rw [hnames]
    exact h.safe

/-- The keys of an exact index are the names. -/
theorem Model.Indexed.keys_items (h : m.Indexed) : m.items.keys = m.names := by
  rw [h.items, Table.keys, List.zipIdx_map_fst]

/-- An item under a safe name that is free extends an exact index. -/
theorem Model.Indexed.withItem {item : Item} {path : Option String} (h : m.Indexed)
    (hfree : m.items.get? item.generatedName = none) (hsafe : Name.Safe item.generatedName) :
    (m.withItem item path).Indexed := by
  have hnames : (m.withItem item path).names = m.names ++ [item.generatedName] := by
    simp [names, Model.withItem]
  have hnotMem : item.generatedName ∉ m.names := by
    rw [← h.keys_items]
    exact Table.get?_eq_none_iff.mp hfree
  have hsize : m.size = m.names.length := by simp [size, names]
  refine ⟨?_, ?_, ?_⟩
  -- a new key goes to the end of the index, where the new name is in the list of names
  · rw [hnames, List.zipIdx_append, ← h.items]
    simpa [Model.withItem, hsize] using Table.insert_of_get?_eq_none m.items _ m.size hfree
  · rw [hnames]
    exact List.nodup_append.mpr ⟨h.nodup, by simp, by
      rintro a ha b hb rfl
      rw [List.mem_singleton.mp hb] at ha
      exact hnotMem ha⟩
  · rw [hnames]
    intro name hname
    rcases List.mem_append.mp hname with hname | hname
    · exact h.safe name hname
    · rw [List.mem_singleton.mp hname]
      exact hsafe

/-- A change of marks and documentation keeps all names. -/
theorem names_withChange {i : Nat} {f : Item → Item} (hf : Item.Remark f) :
    (m.withChange i f).names = m.names := by
  refine List.ext_getElem? fun j => ?_
  simp only [Model.names, Model.withChange, List.getElem?_map, List.getElem?_modify,
    Option.map_eq_map, Option.map_map]
  refine congrArg (fun g => Option.map g m.definitions[j]?) (funext fun item => ?_)
  dsimp only [Function.comp_apply]
  split
  · obtain ⟨_, _, _, heq⟩ := hf item
    rw [heq]
  · rfl

/-- **A step keeps the index exact.** -/
theorem Model.Indexed.step {S : Standard} (h : m.Indexed) (hstep : Step S m m') : m'.Indexed := by
  cases hstep with
  | add item path proposed _ hname hfree _ _ =>
    refine h.withItem hfree ?_
    rw [hname]
    exact Name.safe_deconflict _ _
  | change i f hf => exact h.congr rfl (names_withChange hf)
  | register => exact h.congr rfl rfl
  | operate => exact h.congr rfl rfl
  | share => exact h.congr rfl rfl
  | accept => exact h.congr rfl rfl

/-- Any number of steps keep the index exact. -/
theorem Model.Indexed.steps {S : Standard} (h : m.Indexed) (hsteps : Steps S m m') :
    m'.Indexed := by
  induction hsteps with
  | refl => exact h
  | tail _ step ih => exact ih.step step

/-- Taking the names of variants off leaves those of the items. -/
theorem Model.names_unnamed (m : Model) : m.unnamed.names = m.names := by
  simp [names, unnamed, Item.unnamed, Function.comp_def]

/-- Finishing keeps the index exact, whether it succeeds or fails. -/
theorem Model.Indexed.finish (h : m.Indexed) : m.finish.1.Indexed := by
  by_cases hopen : m.finalized = false
  · rcases Model.finish_cases hopen with ⟨e, hfinish, _⟩ | ⟨hfinish, _⟩
    · rw [hfinish]
      exact h
    · rw [hfinish]
      have hsame := Model.unnamed_nameAll m.settled
      -- naming changes variants only, and relocation changes references only
      have hnames := congrArg Model.names hsame
      rw [Model.names_unnamed, Model.names_unnamed] at hnames
      have hitems := congrArg Model.items hsame
      refine h.congr hitems (hnames.trans ?_)
      simp [Model.names, Model.settled, Model.relocate, Item.relocate, Function.comp_def]
  · rw [Model.finish, if_pos (by simpa using hopen)]
    exact h

/-! ## Calls -/

/-- A call of one operation of a model, with any arguments. -/
inductive Call where
  | addItem (item : Item) (path : Option String)
  | addScalar (specName generatedName : String) (path : Option String) (scalar : Scalar)
  | addInline (specName generatedName : String) (path : Option String) (schema : Document)
    (placement : Option Schema.Placement) (contentType : Document)
  | convert (specName generatedName : String) (path : Option String) (schema : Document)
    (placement : Option Schema.Placement)
  | lower (specName generatedName : String) (schema : Document)
    (placement : Option Schema.Placement) (contentType : Document)
  | deconflict (name : String)
  | registerPath (path : String) (r : Ref)
  | publish (r : Ref)
  | insertParameter (path : Option String) (param : Document)
  | insertComponentParameter (path : String) (param : Document)
  | convertParameter (document entry : Document)
  | makeParameter (param : Document) (item : Ref)
  | createHeader (specName : Document) (path : Option String) (header : Document)
  | convertHeader (document specName header : Document)
  | insertComponentHeader (document specName header : Document)
  | createBody (specName : String) (path : Option String) (body : Document)
  | referredBody (body : Document)
  | insertBody (entry : Document × Document)
  | createVariants (document : Document) (itemName : String) (response : Document)
  | share (path : String) (variants : List Variant)
  | createResponses (document : Document) (specName : String) (responses : Document)
  | insertResponse (document : Document) (entry : Document × Document)
  | insertSchema (entry : Document × Document)
  | acceptParameter
  | createOperation (document path : Document) (verb : Verb) (pathItem operation : Document)
  | appendOperation (o : Operation)
  | insertOperations (document : Document)
  | construct (document : Document)
  | finish

namespace Call

/-- A build for what it does to the model alone. -/
def effect {α : Type} (x : Build α) : Build Unit :=
  x >>= fun _ => pure ()

/-- What a call does. -/
def run : Call → Build Unit
  | .addItem item path => effect (Build.addItem item path)
  | .addScalar specName generatedName path scalar =>
    effect (Build.addScalar specName generatedName path scalar)
  | .addInline specName generatedName path schema placement contentType =>
    effect (Schema.addInline specName generatedName path schema placement contentType)
  | .convert specName generatedName path schema placement =>
    effect (Schema.convert specName generatedName path schema placement)
  | .lower specName generatedName schema placement contentType =>
    effect (Schema.lower specName generatedName schema placement contentType)
  | .deconflict name => effect (Build.deconflict name)
  | .registerPath path r => Build.registerPath path r
  | .publish r => Conversion.publish r
  | .insertParameter path param => effect (Operation.insertParameter path param)
  | .insertComponentParameter path param => effect (Operation.insertComponentParameter path param)
  | .convertParameter document entry => effect (Operation.convertParameter document entry)
  | .makeParameter param item => effect (Operation.makeParameter param item)
  | .createHeader specName path header => effect (Operation.createHeader specName path header)
  | .convertHeader document specName header =>
    effect (Operation.convertHeader document specName header)
  | .insertComponentHeader document specName header =>
    effect (Operation.insertComponentHeader document specName header)
  | .createBody specName path body => effect (Operation.createBody specName path body)
  | .referredBody body => effect (Operation.referredBody body)
  | .insertBody entry => Conversion.insertBody entry
  | .createVariants document itemName response =>
    effect (Operation.createVariants document itemName response)
  | .share path variants => modifyModel fun m => m.withShared path variants
  | .createResponses document specName responses =>
    effect (Operation.createResponses document specName responses)
  | .insertResponse document entry => Conversion.insertResponse document entry
  | .insertSchema entry => Conversion.insertSchema entry
  | .acceptParameter => effect Operation.acceptParameter
  | .createOperation document path verb pathItem operation =>
    effect (Operation.create document path verb pathItem operation)
  | .appendOperation o => modifyModel fun m => m.withOperation o
  | .insertOperations document => Operation.insertAll document
  | .construct document => Conversion.construct document
  | .finish => Build.finish

/-- The workbench after some calls. A call that fails ends itself and no other. -/
def after : List Call → Workbench → Workbench
  | [], w => w
  | call :: rest, w => after rest (exec call.run w).2

theorem along_effect {α : Type} {S : Standard} {x : Build α} {Q : α → Model → Prop}
    (hx : Along S m x Q) : Along S m (effect x) fun _ _ => True :=
  hx.bind fun _ _ _ _ => .pure trivial

/-- Every call takes steps only, but the one that finishes the model. -/
theorem run_along (call : Call) (h : call ≠ .finish) (m : Model) :
    Along .anything m call.run fun _ _ => True := by
  cases call with
  -- the weakest standard asks nothing of the arguments, so they may be arbitrary
  | addItem item path => exact along_effect (.addItem (Standard.fits_anything ..))
  | addScalar => exact along_effect .addScalar
  | addInline => exact along_effect (Schema.addInline_along ..)
  | convert => exact along_effect (Schema.convert_along ..)
  | lower => exact along_effect (Schema.lower_along ..)
  | deconflict name =>
    exact along_effect (.still (Q := fun _ _ => True) (.deconflict name) fun _ => trivial)
  | registerPath path r => exact .registerPath fun _ _ => trivial
  | publish r => exact Conversion.publish_along r
  | insertParameter => exact along_effect (Operation.insertParameter_along ..)
  | insertComponentParameter => exact along_effect (Operation.insertComponentParameter_along ..)
  | convertParameter => exact along_effect (Operation.convertParameter_along ..)
  | makeParameter => exact along_effect (Operation.makeParameter_along trivial)
  | createHeader => exact along_effect (Operation.createHeader_along ..)
  | convertHeader => exact along_effect (Operation.convertHeader_along ..)
  | insertComponentHeader => exact along_effect (Operation.insertComponentHeader_along ..)
  | createBody => exact along_effect (Operation.createBody_along ..)
  | referredBody => exact along_effect (Operation.referredBody_along _)
  | insertBody entry => exact Conversion.insertBody_along entry
  | createVariants => exact along_effect (Operation.createVariants_along ..)
  | share path variants => exact Conversion.share_along fun _ _ => ⟨trivial, trivial⟩
  | createResponses => exact along_effect (Operation.createResponses_along ..)
  | insertResponse document entry => exact Conversion.insertResponse_along document entry
  | insertSchema entry => exact Conversion.insertSchema_along entry
  | acceptParameter => exact along_effect Operation.acceptParameter_along
  | createOperation => exact along_effect (Operation.create_along ..)
  | appendOperation o => exact Operation.operate_along fun _ _ => trivial
  | insertOperations document => exact Operation.insertAll_along document
  | construct document => exact Conversion.construct_along document
  | finish => exact (h rfl).elim

/-- Nothing is promised of any model. -/
theorem sound_anything (m : Model) : Standard.anything.Sound m where
  definitions _ _ _ := ⟨fun _ _ => trivial, fun _ _ => trivial⟩
  operations _ _ _ _ := trivial
  shared _ _ _ _ := ⟨trivial, trivial⟩
  registered _ _ := trivial
  accepted _ _ := trivial

/-- **A call keeps the index of names exact**, whether it answers or fails. -/
theorem indexed_run (call : Call) (w : Workbench) (h : w.model.Indexed) :
    (exec call.run w).2.model.Indexed := by
  by_cases hfinish : call = .finish
  · subst hfinish
    rw [run, exec_finish]
    exact h.finish
  · exact h.steps ((run_along call hfinish _).runs (sound_anything _) w rfl).1

/-- **After any sequence of calls on a fresh model the index of names is exact.** -/
theorem indexed_after (calls : List Call) (bounded : Bool) (docs : Option Docs.Fetcher) :
    (after calls { model := { boundedIntegers := bounded }, docs }).model.Indexed := by
  -- the induction is on the calls, for any workbench to start from
  have hafter : ∀ (calls : List Call) (w : Workbench), w.model.Indexed →
      (after calls w).model.Indexed := by
    intro calls
    induction calls with
    | nil => exact fun w h => h
    | cons call rest ih => exact fun w h => ih _ (indexed_run call w h)
  exact hafter calls _ (Model.indexed_empty bounded)

end Call

end TypedApi
