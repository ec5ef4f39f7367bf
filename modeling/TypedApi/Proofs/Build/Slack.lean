import TypedApi.Proofs.Build.Step
import TypedApi.Proofs.Document.Legible
import TypedApi.Proofs.Graph.View
import TypedApi.Proofs.Name.Plain
/-!
What two conversions of one document may differ in.

A slack says how the models of two runs are looked at, from where each run may
take documentation, and with which failures one of the runs may end without the
other. Workbenches are alike up to a slack if their models look the same in its
views; then they have as many items under the same names, the same paths and the
same operations. All names in them are plain besides. Whatever a build does to
two such models, it leaves them alike.
-/

set_option autoImplicit false

namespace TypedApi

/-! ## Slacks -/

/-- What two conversions of one document may differ in. -/
inductive Slack where
  /-- Nothing at all. -/
  | nothing
  /-- The first one may keep bounds of integers, which the second one drops. -/
  | bounds
  /-- The first one may fetch documentation, which the second one does not. Unless the document is
  legible, either may break off over what cannot be read. -/
  | docs (legible : Bool)

/-- A fetch that has failed. -/
def Failure.IsFetch (e : Failure) : Prop :=
  ∃ url name problem, e = Docs.Fetcher.failure url name problem

namespace Slack

/-- What is seen of the first model. -/
def first : Slack → View
  | nothing => ⟨true, true⟩
  | bounds => ⟨true, false⟩
  | docs _ => ⟨false, true⟩

/-- What is seen of the second model. -/
def second : Slack → View
  | nothing => ⟨true, true⟩
  | bounds => ⟨true, true⟩
  | docs _ => ⟨false, true⟩

/-- The sources of documentation. -/
def sources : Slack → Option Docs.Fetcher → Option Docs.Fetcher → Prop
  | docs _, _, g => g = none
  | _, f, g => g = f

/-- The values that may be read. -/
def admits : Slack → Document → Prop
  | docs true, d => d.isLegible = true
  | _, _ => True

/-- The failures with which the first run may end alone. -/
def firstAlone : Slack → Failure → Prop
  | docs legible, e => e.IsFetch ∨ legible = false ∧ e = .malformed
  | _, _ => False

/-- The failures with which the second run may end alone. -/
def secondAlone : Slack → Failure → Prop
  | docs legible, e => legible = false ∧ e = .malformed
  | _, _ => False

end Slack

variable {α : Type} {V : Slack} {m m' : Model}

/-! ## What may be read -/

namespace Slack

/-- A value may be read if it is legible, where it has to be. -/
theorem admits_iff {d : Document} : V.admits d ↔ (V = .docs true → d.isLegible = true) := by
  cases V with
  | docs legible => cases legible <;> simp [admits]
  | _ => simp [admits]

/-- What may be read stays so on the way to a part of it that is legible if the whole is. -/
theorem admits_of {d x : Document} (h : d.isLegible = true → x.isLegible = true)
    (hd : V.admits d) : V.admits x :=
  admits_iff.mpr fun hV => h (admits_iff.mp hd hV)

/-- What is legible may be read. -/
theorem admits_legible {x : Document} (h : x.isLegible = true) : V.admits x :=
  admits_iff.mpr fun _ => h

theorem admits_find? {d : Document} (hd : V.admits d) (key : String) :
    V.admits ((d.find? key).getD .null) :=
  admits_of (fun h => Document.isLegible_getD_find? h key) hd

theorem admits_get? {d x : Document} {key : String} (hd : V.admits d) (hx : d.get? key = some x) :
    V.admits x :=
  admits_of (fun h => Document.isLegible_of_get? h hx) hd

theorem admits_orElse {d x : Document} (hd : V.admits d) (hx : x.isLegible = true) :
    V.admits (d.orElse x) :=
  admits_of (fun h => Document.isLegible_orElse h hx) hd

theorem admits_element {d x : Document} {items : List Document} (hd : V.admits d)
    (hitems : d.elements? = some items) (hx : x ∈ items) : V.admits x :=
  admits_of (fun h => Document.isLegible_of_elements? h hitems hx) hd

theorem admits_value {d : Document} {fields : List (Document × Document)} {p : Document × Document}
    (hd : V.admits d) (hfields : d.fields? = some fields) (hp : p ∈ fields) : V.admits p.2 :=
  admits_of (fun h => Document.isLegible_of_fields? h hfields hp) hd

theorem admits_withType {d x : Document} (hd : V.admits d) (hx : V.admits x) :
    V.admits (d.withField "type" x) :=
  admits_iff.mpr fun hV =>
    Document.isLegible_withType (admits_iff.mp hd hV) (admits_iff.mp hx hV)

theorem admits_follow {document value x : Document} (hd : V.admits document)
    (hvalue : V.admits value) (hx : document.followOrBlame value = .ok x) : V.admits x :=
  admits_iff.mpr fun hV =>
    Document.isLegible_of_followOrBlame (admits_iff.mp hd hV) (admits_iff.mp hvalue hV) hx

/-- Whatever a chain of references leads to may be read if the document may. -/
theorem admits_chain {document value : Document} {path : String} {links : List Document.Link}
    (hd : V.admits document)
    (hlinks : Document.blameReference path (document.chain value) = .ok links) :
    ∀ link ∈ links, V.admits link.target := by
  intro link hlink
  refine admits_of (fun h => ?_) hd
  exact Document.isLegible_of_chainFrom h (Document.of_blameReference_ok hlinks) link hlink

/-- Documentation before it is known to be a text: the same on both sides, or something that each
side can read, or whatever it is if a side may break off over it. -/
def raw : Slack → Document → Document → Prop
  | docs legible, a, b => a = b ∨ legible = false ∨ a.isReadable = true ∧ b.isReadable = true
  | _, a, b => a = b

/-- Documentation once it is read, the same on both sides if it is looked at. -/
def said (V : Slack) (a b : α) : Prop :=
  V.first.docs = true → a = b

end Slack

/-! ## Models that are alike -/

/-- All names that a model has made are plain: those of the items, which are proper besides, and
those of the arguments for headers. -/
structure Model.PlainlyNamed (m : Model) : Prop where
  items : ∀ item ∈ m.definitions, Name.Proper item.generatedName
  headers : ∀ o ∈ m.operations, ∀ p ∈ o.headers, Name.Plain p.2.generatedName

/-- Two models that look the same, and whose names are plain. -/
structure Model.Alike (V : Slack) (m m' : Model) : Prop where
  seen : V.first.model m = V.second.model m'
  plain : m.PlainlyNamed

/-- Two workbenches with models that are alike. -/
structure Workbench.Alike (V : Slack) (w w' : Workbench) : Prop where
  models : Model.Alike V w.model w'.model
  sources : V.sources w.docs w'.docs

/-- Two items that look the same, with a proper name. -/
structure Item.Alike (V : Slack) (item item' : Item) : Prop where
  seen : V.first.item item = V.second.item item'
  plain : Name.Proper item.generatedName

namespace Item.Alike

variable {item item' : Item}

/-- Two items that are the same but for documentation and shape, which look the same. -/
theorem make (hdocs : V.said item.docs item'.docs)
    (hshape : V.first.shape item.shape = V.second.shape item'.shape)
    (hrest : item' = { item with docs := item'.docs, shape := item'.shape })
    (hplain : Name.Proper item.generatedName) : Item.Alike V item item' := by
  refine ⟨?_, hplain⟩
  have hseen : (if V.first.docs then item.docs else .null) =
      if V.second.docs then item'.docs else .null := by
    cases V with
    | docs legible => rfl
    | nothing | bounds => exact hdocs rfl
  rw [hrest, View.item, View.item, hseen, hshape]

/-- An item without bounds looks the same as itself. -/
theorem refl (hshape : item.shape.loosened = item.shape) (hplain : Name.Proper item.generatedName) :
    Item.Alike V item item := by
  refine ⟨?_, hplain⟩
  cases V <;> simp [Slack.first, Slack.second, View.item, View.shape, hshape]

theorem said (h : Item.Alike V item item') : V.said item.docs item'.docs := by
  have hseen := congrArg Item.docs h.seen
  intro hdocs
  cases V with
  | docs legible => cases hdocs
  | nothing | bounds => exact hseen

theorem specName_eq (h : Item.Alike V item item') : item.specName = item'.specName :=
  (congrArg Item.specName h.seen :)

theorem contentType_eq (h : Item.Alike V item item') : item.contentType = item'.contentType :=
  (congrArg Item.contentType h.seen :)

end Item.Alike

/-- A name that is found is proper. -/
theorem Model.PlainlyNamed.of_nameOf (h : m.PlainlyNamed) {r : Ref} {name : String}
    (hname : m.nameOf r = .ok name) : Name.Proper name := by
  rw [nameOf, resolve] at hname
  split at hname
  · rename_i index _
    rw [itemAt] at hname
    cases hitem : (m.position? index).bind fun i => m.definitions[i]? with
    | none =>
      rw [hitem] at hname
      cases hname
    | some item =>
      rw [hitem] at hname
      cases hname
      obtain ⟨i, _, hi⟩ := Option.bind_eq_some_iff.mp hitem
      exact h.items item (List.mem_of_getElem? hi)
  · cases hname

namespace Model.Alike

theorem items_eq (h : Model.Alike V m m') : m.items = m'.items :=
  (congrArg Model.items h.seen :)

theorem paths_eq (h : Model.Alike V m m') : m.namedReferences = m'.namedReferences :=
  (congrArg Model.namedReferences h.seen :)

theorem shared_eq (h : Model.Alike V m m') : m.responseVariants = m'.responseVariants :=
  (congrArg Model.responseVariants h.seen :)

theorem accept_eq (h : Model.Alike V m m') : m.acceptHeader = m'.acceptHeader :=
  (congrArg Model.acceptHeader h.seen :)

theorem finalized_eq (h : Model.Alike V m m') : m.finalized = m'.finalized :=
  (congrArg Model.finalized h.seen :)

theorem size_eq (h : Model.Alike V m m') : m.size = m'.size := by
  simpa using congrArg Model.size h.seen

theorem indexOf_eq (h : Model.Alike V m m') (r : Ref) : m.indexOf r = m'.indexOf r := by
  simpa using congrArg (fun m : Model => m.indexOf r) h.seen

theorem position?_eq (h : Model.Alike V m m') (index : Int) :
    m.position? index = m'.position? index := by
  simpa using congrArg (fun m : Model => m.position? index) h.seen

theorem nameOf_eq (h : Model.Alike V m m') (r : Ref) : m.nameOf r = m'.nameOf r := by
  simpa using congrArg (fun m : Model => m.nameOf r) h.seen

/-- An item is added on both sides under one name. -/
theorem withItem (h : Model.Alike V m m') {item item' : Item} (hitem : Item.Alike V item item')
    (path : Option String) : Model.Alike V (m.withItem item path) (m'.withItem item' path) := by
  refine ⟨?_, fun d hd => ?_, h.plain.headers⟩
  · rw [View.model_withItem, View.model_withItem, h.seen, hitem.seen]
  · rcases List.mem_append.mp hd with hd | hd
    · exact h.plain.items d hd
    · rw [List.mem_singleton.mp hd]
      exact hitem.plain

theorem withPath (h : Model.Alike V m m') (path : String) (index : Int) :
    Model.Alike V (m.withPath path index) (m'.withPath path index) :=
  ⟨congrArg (fun m : Model => m.withPath path index) h.seen, h.plain.items, h.plain.headers⟩

theorem withShared (h : Model.Alike V m m') (path : String) (variants : List Variant) :
    Model.Alike V (m.withShared path variants) (m'.withShared path variants) :=
  ⟨congrArg (fun m : Model => m.withShared path variants) h.seen, h.plain.items, h.plain.headers⟩

theorem withAccept (h : Model.Alike V m m') (r : Ref) :
    Model.Alike V (m.withAccept r) (m'.withAccept r) :=
  ⟨congrArg (fun m : Model => m.withAccept r) h.seen, h.plain.items, h.plain.headers⟩

/-- An operation is added on both sides, the same but for its documentation. -/
theorem withOperation (h : Model.Alike V m m') {o o' : Operation}
    (ho : V.first.operation o = V.second.operation o')
    (hplain : ∀ p ∈ o.headers, Name.Plain p.2.generatedName) :
    Model.Alike V (m.withOperation o) (m'.withOperation o') := by
  refine ⟨?_, h.plain.items, fun q hq => ?_⟩
  · rw [View.model_withOperation, View.model_withOperation, h.seen, ho]
  · rcases List.mem_append.mp hq with hq | hq
    · exact h.plain.headers q hq
    · rw [List.mem_singleton.mp hq]
      exact hplain

end Model.Alike

/-- A change that makes items that look the same look the same again, and keeps their names. -/
structure Item.Steered (V : Slack) (c : Item → Item) : Prop where
  seen : ∀ item item', V.first.item item = V.second.item item' →
    V.first.item (c item) = V.second.item (c item')
  name : ∀ item, (c item).generatedName = item.generatedName

namespace Item.Steered

variable {c : Item → Item}

/-- A change that may as well be made in the view. -/
theorem of_comm (hseen : ∀ (v : View) item, v.item (c item) = c (v.item item))
    (hname : ∀ item, (c item).generatedName = item.generatedName) : Item.Steered V c :=
  ⟨fun item item' h => by rw [hseen, hseen, h], hname⟩

/-- A change of documentation. -/
theorem of_docs (f : Document → Document) :
    Item.Steered V fun item => { item with docs := f item.docs } := by
  refine ⟨fun item item' h => ?_, fun _ => rfl⟩
  cases V with
  | docs legible => exact h
  | nothing | bounds => exact congrArg (fun d : Item => { d with docs := f d.docs }) h

/-- Items that look the same and are changed alike look the same. -/
theorem alike (hc : Item.Steered V c) {item item' : Item} (h : Item.Alike V item item') :
    Item.Alike V (c item) (c item') := by
  refine ⟨hc.seen item item' h.seen, ?_⟩
  rw [hc.name]
  exact h.plain

end Item.Steered

/-- Two operations that are the same but for their documentation look the same. -/
theorem Slack.operation_eq {o o' : Operation} (hdocs : V.said o.docs o'.docs)
    (hrest : o' = { o with docs := o'.docs }) : V.first.operation o = V.second.operation o' := by
  have hseen : (if V.first.docs then o.docs else none) =
      if V.second.docs then o'.docs else none := by
    cases V with
    | docs legible => rfl
    | nothing | bounds => exact hdocs rfl
  rw [hrest, View.operation, View.operation, hseen]

/-- Items that look the same are changed at one place. -/
theorem map_modify_eq {f g c : Item → Item}
    (hc : ∀ item item', f item = g item' → f (c item) = g (c item')) {l l' : List Item}
    (h : l.map f = l'.map g) (i : Nat) : (l.modify i c).map f = (l'.modify i c).map g := by
  apply List.ext_getElem?
  intro j
  have hj := congrArg (·[j]?) h
  simp only [List.getElem?_map, List.getElem?_modify] at hj ⊢
  cases hl : l[j]? with
  | none =>
    rw [hl] at hj
    rw [Option.map_eq_none_iff.mp hj.symm]
    rfl
  | some item =>
    rw [hl] at hj
    obtain ⟨item', hitem', heq⟩ := Option.map_eq_some_iff.mp hj.symm
    rw [hitem']
    by_cases hij : i = j
    · simp [hij, hc item item' heq.symm]
    · simp [hij, heq]

theorem Model.Alike.withChange (h : Model.Alike V m m') {c : Item → Item} (hc : Item.Steered V c)
    (i : Nat) : Model.Alike V (m.withChange i c) (m'.withChange i c) := by
  have hitems := map_modify_eq hc.seen (congrArg Model.definitions h.seen) i
  refine ⟨?_, fun d hd => ?_, h.plain.headers⟩
  · show { V.first.model m with definitions := (m.definitions.modify i c).map V.first.item } =
      { V.second.model m' with definitions := (m'.definitions.modify i c).map V.second.item }
    rw [h.seen, hitems]
  · obtain ⟨j, hj⟩ := List.mem_iff_getElem?.mp hd
    simp only [Model.withChange, List.getElem?_modify] at hj
    obtain ⟨d₀, hd₀, rfl⟩ := Option.map_eq_some_iff.mp hj
    have hplain := h.plain.items d₀ (List.mem_of_getElem? hd₀)
    split
    · rwa [hc.name]
    · exact hplain

end TypedApi
