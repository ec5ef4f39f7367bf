import TypedApi.Proofs.Operation.Changes
import TypedApi.Proofs.Schema.Grows
/-!
Which paths the parts of an operation register.

Lowering a parameter, a body, a header or a response adds items and remarks on
items, and it registers the path that it is given, or those of shared headers
that it meets. `Model.Touches` names these changes with the paths that they may
register; what is not an item and not such a path is out of their reach, and so
is the mark of a header once an item has it.
-/

set_option autoImplicit false

namespace TypedApi

open Build

variable {P P' : String → Prop} {m m' : Model}

/-! ## Touches -/

/-- A change of items or of the paths in `P`. -/
inductive Model.Touch (P : String → Prop) : Model → Model → Prop
  | add (m : Model) (item : Item) (path : Option String) :
    (∀ p, path = some p → P p) → Touch P m (m.withItem item path)
  | change (m : Model) (i : Nat) (f : Item → Item) :
    Item.KeepsMark f → Touch P m (m.withChange i f)
  | register (m : Model) (path : String) (index : Int) : P path → Touch P m (m.withPath path index)

/-- Any number of changes of items and of the paths in `P`. -/
abbrev Model.Touches (P : String → Prop) : Model → Model → Prop :=
  Relation.ReflTransGen (Model.Touch P)

instance : IsPreorder Model (Model.Touches P) where
  refl _ := .refl
  trans _ _ _ := .trans

/-- More paths may be touched where fewer may. -/
theorem Model.Touches.mono (hP : ∀ p, P p → P' p) (h : m.Touches P m') : m.Touches P' m' := by
  refine Relation.ReflTransGen.mono (fun a b hab => ?_) _ _ h
  cases hab with
  | add item path hpath => exact .add a item path fun p hp => hP p (hpath p hp)
  | change i f hf => exact .change a i f hf
  | register path index hpath => exact .register a path index (hP path hpath)

/-- Growth touches no path. -/
theorem Model.Grows.touches (h : m.Grows m') : m.Touches P m' := by
  refine Relation.ReflTransGen.mono (fun a b hab => ?_) _ _ h
  obtain ⟨_, item, rfl⟩ := hab
  exact .add a item none (by simp)

/-- A key of a table with a write is the key written or was there before. -/
theorem Table.mem_keys_insert {α : Type} {t : Table α} {key k : String} {value : α}
    (h : k ∈ (t.insert key value).keys) : k = key ∨ k ∈ t.keys := by
  obtain ⟨p, hp, rfl⟩ := List.mem_map.mp h
  rcases Table.mem_insert hp with rfl | hp
  · exact .inl rfl
  · exact .inr (List.mem_map_of_mem hp)

/-- The paths registered afterwards were registered before or may be touched. -/
theorem Model.Touches.mem_paths (h : m.Touches P m') {path : String}
    (hpath : path ∈ m'.namedReferences.keys) : path ∈ m.namedReferences.keys ∨ P path := by
  induction h with
  | refl => exact .inl hpath
  | tail _ htouch ih =>
    cases htouch with
    | add item own hown =>
      cases own with
      | none => exact ih hpath
      | some p =>
        rcases Table.mem_keys_insert hpath with rfl | hpath
        · exact .inr (hown _ rfl)
        · exact ih hpath
    | change i f => exact ih hpath
    | register p index hp =>
      rcases Table.mem_keys_insert hpath with rfl | hpath
      · exact .inr hp
      · exact ih hpath

/-- Shared variants are out of reach. -/
theorem Model.Touches.responseVariants_eq (h : m.Touches P m') :
    m'.responseVariants = m.responseVariants := by
  induction h with
  | refl => rfl
  | tail _ htouch ih => cases htouch <;> exact ih

/-- So are the operations. -/
theorem Model.Touches.operations_eq (h : m.Touches P m') : m'.operations = m.operations := by
  induction h with
  | refl => rfl
  | tail _ htouch ih => cases htouch <;> exact ih

/-- So is the implicit header. -/
theorem Model.Touches.acceptHeader_eq (h : m.Touches P m') :
    m'.acceptHeader = m.acceptHeader := by
  induction h with
  | refl => rfl
  | tail _ htouch ih => cases htouch <;> exact ih

/-- No item is taken away. -/
theorem Model.Touches.size_le (h : m.Touches P m') : m.size ≤ m'.size := by
  induction h with
  | refl => exact Nat.le_refl _
  | tail _ htouch ih =>
    refine Nat.le_trans ih ?_
    cases htouch <;> simp [Model.size, Model.withItem, Model.withChange, Model.withPath]

/-- An item with the mark of a header keeps its place and the mark. -/
theorem Model.Touches.marked (h : m.Touches P m') {i : Nat} {item : Item}
    (hitem : m.definitions[i]? = some item) (hmark : item.implHeader = true) :
    ∃ item', m'.definitions[i]? = some item' ∧ item'.implHeader = true := by
  induction h with
  | refl => exact ⟨item, hitem, hmark⟩
  | tail _ htouch ih =>
    obtain ⟨old, hold, hmarked⟩ := ih
    cases htouch with
    | add new path _ =>
      have hi := (List.getElem?_eq_some_iff.mp hold).1
      exact ⟨old, (List.getElem?_append_left hi).trans hold, hmarked⟩
    | change j f hf =>
      refine ⟨if j = i then f old else old, ?_, ?_⟩
      · rw [Model.withChange, List.getElem?_modify, hold]
        rfl
      · split
        · exact hf old hmarked
        · exact hmarked
    | register path index _ => exact ⟨old, hold, hmarked⟩

namespace Keeps

theorem of_grows {α : Type} {x : Build α} (hx : Keeps Model.Grows x) : Keeps (Model.Touches P) x :=
  hx.mono fun _ _ h => h.touches

theorem addItem_path {item : Item} {path : Option String} (h : ∀ p, path = some p → P p) :
    Keeps (Model.Touches P) (Build.addItem item path) := by
  constructor
  intro w
  rcases addItem_cases item path w with ⟨e, w', hfail, hm⟩ | ⟨name, notes, _, _, _, _, hok⟩
  · rw [hfail, hm]
  · rw [hok]
    exact .single (.add _ _ path h)

theorem modifyItem (r : Ref) {f : Item → Item} (hf : Item.KeepsMark f) :
    Keeps (Model.Touches P) (Build.modifyItem r f) := by
  refine .model fun m => .skip (.lift _) fun index => ?_
  split
  · exact ⟨fun w => .single (.change _ _ f hf)⟩
  · exact .throw _

theorem registerPath {path : String} {r : Ref} (h : P path) :
    Keeps (Model.Touches P) (Build.registerPath path r) := by
  constructor
  intro w
  rcases registerPath_cases path r w with ⟨e, hfail⟩ | ⟨index, _, _, _, hok⟩
  · rw [hfail]
  · rw [hok]
    exact .single (.register _ path index h)

end Keeps

namespace Operation

/-! ## Parameters -/

theorem referredItem_grows {names : Build (String × String)} (hnames : Still names)
    (path : Document) : Keeps Model.Grows (referredItem names path) :=
  .skip (.require _) fun _ => .ite (.skip hnames fun _ => .addScalar ..) (.named _)

/-! ## Bodies -/

theorem mediaItem_grows (specName generatedName : String) (schema contentType : Document) :
    Keeps Model.Grows (mediaItem specName generatedName schema contentType) := by
  refine .ite (.skip (.optionalText _) fun _ => .pure _) (.ite (Schema.lower_grows ..) ?_)
  refine .skip (.require _) fun path => .ite (.skip (.optionalText _) fun _ => .pure _) ?_
  exact (Schema.convert_grows ..).bind fun _ => .skip (.optionalText _) fun _ => .pure _

theorem bodyVariant_grows (required : Bool) (entry : Document × Document) :
    Keeps Model.Grows (bodyVariant required entry) :=
  .skip (.require _) fun _ => .skip (.field _ _) fun _ =>
    (mediaItem_grows ..).bind fun _ => (Keeps.addItem _).bind fun _ => .pure _

theorem bodyItem_grows (specName : String) (required : Bool)
    (content : List (Document × Document)) :
    Keeps Model.Grows (bodyItem specName required content) := by
  unfold bodyItem
  dsimp only
  split
  · exact mediaItem_grows ..
  · exact .skip (.field _ _) fun _ => mediaItem_grows ..
  · refine .skip (steady_sharesReference _).still fun shared => .ite ?_ ?_
    · exact .skip (.field _ _) fun _ => mediaItem_grows ..
    · exact (Keeps.mapM (bodyVariant_grows required) _).bind fun _ => .pure _

/-- A body registers no path but the one given. -/
theorem createBody_touches (specName : String) {path : Option String} (body : Document)
    (h : ∀ p, path = some p → P p) : Keeps (Model.Touches P) (createBody specName path body) :=
  .skip (.field _ _) fun _ => .skip (.require _) fun _ =>
    (Keeps.of_grows (bodyItem_grows ..)).bind fun _ => .addItem_path h

/-! ## The parts of an operation -/

/-- The parts of an operation touch items, and the paths that they may register. -/
theorem allows_touches : Allows P (Model.Touches P) where
  addItem _ h := .addItem_path h
  addInline _ _ _ _ _ h := (Keeps.of_grows (Schema.lower_grows ..)).bind fun _ => .addItem_path h
  convert _ _ _ := .of_grows (Schema.convert_grows ..)
  createBody specName _ body h := createBody_touches specName body h
  modifyItem r _ _ hf := .modifyItem r hf
  registerPath _ h := .registerPath h

/-- A parameter registers no path but the one given. -/
theorem insertParameter_touches {path : Option String} (param : Document)
    (h : ∀ p, path = some p → P p) : Keeps (Model.Touches P) (insertParameter path param) :=
  allows_touches.insertParameter param h

theorem insertComponentParameter_touches {path : String} (param : Document) (h : P path) :
    Keeps (Model.Touches P) (insertComponentParameter path param) :=
  allows_touches.insertComponentParameter param h

/-- A header registers no path but the one given. -/
theorem createHeader_touches (specName : Document) {path : Option String} (header : Document)
    (h : ∀ p, path = some p → P p) : Keeps (Model.Touches P) (createHeader specName path header) :=
  allows_touches.createHeader specName header h

theorem createShared_touches (specName : Document) {path : String} (header : Document)
    (h : P path) : Keeps (Model.Touches P) (createShared specName path header) :=
  allows_touches.createShared specName header h

theorem addPayload_touches (specName generatedName : String)
    (schema contentType docs : Document) :
    Keeps (Model.Touches P) (addPayload specName generatedName schema contentType docs) :=
  allows_touches.addPayload ..

/-- A response registers the paths of shared headers only. -/
theorem createVariants_touches (document : Document) (itemName : String) (response : Document) :
    Keeps (Model.Touches IsHeaderPath) (createVariants document itemName response) :=
  allows_touches.createVariants (allows_touches.convertHeader (fun _ h => h) _) ..

end Operation

end TypedApi
