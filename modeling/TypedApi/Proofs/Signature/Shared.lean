import TypedApi.Proofs.Conversion.AliasOrder
import TypedApi.Proofs.Schema.Denotation
import TypedApi.Proofs.Signature.Parts
import TypedApi.Proofs.Signature.Union
/-!
Shared responses in a conversion.

The shared responses of a document are lowered one after the other. Each leaves
its variants under its path: those that it was lowered to, or those that are
kept already for the response that it refers to. So what is kept for a path comes
from a response that stands in the document and is no reference, and whatever
follows from lowering one and is handed on by an alias holds of all that is kept.
The operations come later and find it as the shared responses have left it.
-/

set_option autoImplicit false

/-! # The operations of a document, one after the other

Lowering the operations of a document goes through its paths and through the
keys of each path. What is no operation is passed over, and every operation is
lowered on the workbench that the one before has left. A run that answers is
therefore a chain of turns, one for each operation of the model, in order.
-/

namespace TypedApi.Operation

open Build

/-! ## Turns -/

/-- The paths of a document, if it has the form for them. -/
def pathsOf? (document : Document) : Option (List (Document × Document)) := do
  ((← document.get? "paths").orElse (.object [])).fields?

/-- A value stands in a document as an operation of one of its paths. -/
def StandsIn (document path pathItem : Document) (verb : Verb) (source : Document) : Prop :=
  ∃ paths entry fields key, pathsOf? document = some paths ∧ (path, entry) ∈ paths ∧
    document.followOrBlame entry = .ok pathItem ∧ pathItem.fields? = some fields ∧
    (.text key, source) ∈ fields ∧ Verb.parse key = .ok verb

/-- The lowering of one operation of a document, with the workbench before it and after it. -/
structure Turn (document : Document) where
  path : Document
  pathItem : Document
  verb : Verb
  source : Document
  before : Workbench
  after : Workbench
  operation : Operation
  stands : StandsIn document path pathItem verb source
  create_eq : exec (create document path verb pathItem source) before = (.ok operation, after)

/-- The workbench after a turn, the operation being part of the model. -/
def Turn.added {document : Document} (t : Turn document) : Workbench :=
  { t.after with model := t.after.model.withOperation t.operation }

/-- A turn takes steps only. -/
theorem Turn.steps {document : Document} (t : Turn document) :
    Steps .anything t.before.model t.added.model :=
  .tail ((create_along ..).steps_of_exec (Call.sound_anything _) t.create_eq).1
    (.operate _ t.operation fun _ _ => trivial)

/-- A chain of turns between two workbenches. -/
inductive Turns (document : Document) : Workbench → List (Turn document) → Workbench → Prop
  | done (w : Workbench) : Turns document w [] w
  | next (t : Turn document) {ts : List (Turn document)} {w : Workbench} :
    Turns document t.added ts w → Turns document t.before (t :: ts) w

variable {document : Document} {w w' w'' : Workbench} {ts ts' : List (Turn document)}

namespace Turns

theorem append (h : Turns document w ts w') (h' : Turns document w' ts' w'') :
    Turns document w (ts ++ ts') w'' := by
  induction h with
  | done => exact h'
  | next t _ ih => exact .next t (ih h')

theorem steps (h : Turns document w ts w') : Steps .anything w.model w'.model := by
  induction h with
  | done => exact .refl
  | next t _ ih => exact t.steps.trans ih

/-- An operation of a chain of turns is lowered, and then steps lead to the end of the chain. -/
theorem steps_of_mem (h : Turns document w ts w')
    {t : Turn document} (ht : t ∈ ts) : Steps .anything t.after.model w'.model := by
  induction h with
  | done => cases ht
  | next first hrest ih =>
    rcases List.mem_cons.mp ht with rfl | ht
    · exact .head (.operate _ t.operation fun _ _ => trivial) hrest.steps
    · exact ih ht

/-- Every turn adds its operation to those that are there. -/
theorem operations_eq (h : Turns document w ts w') :
    w'.model.operations = w.model.operations ++ ts.map Turn.operation := by
  induction h with
  | done => simp
  | next t _ ih =>
    have hadded : t.added.model.operations = t.before.model.operations ++ [t.operation] :=
      congrArg (· ++ [t.operation]) (same_of_create t.create_eq).1
    rw [ih, hadded, List.append_assoc]
    rfl

/-- What is kept for shared responses is the same before all turns and after them. -/
theorem responseVariants_eq (h : Turns document w ts w') :
    w'.model.responseVariants = w.model.responseVariants ∧
      ∀ t ∈ ts, t.before.model.responseVariants = w.model.responseVariants := by
  induction h with
  | done => exact ⟨rfl, by simp⟩
  | next t _ ih =>
    have hadded : t.added.model.responseVariants = t.before.model.responseVariants :=
      (same_of_create t.create_eq).2
    rw [hadded] at ih
    refine ⟨ih.1, fun t' ht' => ?_⟩
    rcases List.mem_cons.mp ht' with rfl | ht'
    · rfl
    · exact ih.2 t' ht'

end Turns

/-! ## The run over all operations -/

/-- A loop whose body is a chain of turns is one. -/
theorem exists_turns_of_forM {α : Type} {f : α → Build PUnit} {l : List α}
    (hf : ∀ a ∈ l, ∀ w w', exec (f a) w = (.ok (), w') → ∃ ts, Turns document w ts w')
    (h : exec (l.forM f) w = (.ok (), w')) : ∃ ts, Turns document w ts w' := by
  induction l generalizing w with
  | nil =>
    cases h
    exact ⟨[], .done _⟩
  | cons a l ih =>
    obtain ⟨_, u, ha, hrest⟩ := of_exec_bind_ok h
    obtain ⟨ts, hts⟩ := hf a List.mem_cons_self _ _ ha
    obtain ⟨ts', hts'⟩ := ih (fun b hb => hf b (List.mem_cons_of_mem _ hb)) hrest
    exact ⟨ts ++ ts', hts.append hts'⟩

/-- What stands under one key of a path makes at most one turn. -/
theorem exists_turns_of_insertKey {path pathItem : Document} {entry : Document × Document}
    (hstands : ∀ key verb, entry.1 = .text key → Verb.parse key = .ok verb →
      StandsIn document path pathItem verb entry.2)
    (h : exec (insertKey document path pathItem entry) w = (.ok (), w')) :
    ∃ ts, Turns document w ts w' := by
  rw [insertKey] at h
  obtain ⟨key, hkey, h⟩ := of_exec_bind_steady (.require _) h
  split at h
  · cases h
    exact ⟨[], .done _⟩
  · obtain ⟨verb, hverb, h⟩ := of_exec_bind_steady (.lift _) h
    obtain ⟨o, u, hcreate, h⟩ := of_exec_bind_ok h
    cases h
    have hentry := Schema.eq_text_of_text? (of_exec_require_ok (hkey w))
    let t : Turn document := {
      path, pathItem, verb
      source := entry.2
      before := w
      after := u
      operation := o
      stands := hstands key verb hentry (of_exec_lift_ok (hverb w))
      create_eq := hcreate }
    have hturn : Turns document t.before [t] t.added := .next t (.done _)
    exact ⟨[t], hturn⟩

/-- **Lowering all operations is a chain of turns**, one for each operation that the model gets. -/
theorem exists_turns (h : exec (insertAll document) w = (.ok (), w')) :
    ∃ ts, Turns document w ts w' := by
  rw [insertAll] at h
  obtain ⟨d, hd, h⟩ := of_exec_bind_steady (.field _ _) h
  obtain ⟨paths, hpaths, h⟩ := of_exec_bind_steady (.require _) h
  have hpaths : pathsOf? document = some paths := by
    rw [pathsOf?, of_exec_require_ok (hd w)]
    exact of_exec_require_ok (hpaths w)
  refine exists_turns_of_forM (fun entry hentry u u' h => ?_) h
  rw [insertPath] at h
  obtain ⟨pathItem, hpathItem, h⟩ := of_exec_bind_steady (.lift _) h
  obtain ⟨fields, hfields, h⟩ := of_exec_bind_steady (.require _) h
  refine exists_turns_of_forM (fun p hp v v' h => ?_) h
  refine exists_turns_of_insertKey (fun key verb hkey hverb => ?_) h
  exact ⟨paths, entry.2, fields, key, hpaths, hentry, of_exec_lift_ok (hpathItem u),
    of_exec_require_ok (hfields u), hkey ▸ hp, hverb⟩

end TypedApi.Operation

/-! # What the shared responses leave -/

namespace TypedApi.Conversion

open Build Operation

variable {document : Document} {w w' : Workbench}

/-- The path of a shared response. -/
def responsePath (name : String) : String :=
  "#/components/responses/" ++ name

/-! ## One shared response -/

/-- **A shared response keeps its variants under its path**: an alias those of the other, any other
response those that it is lowered to. -/
theorem insertResponse_cases {key response : Document}
    (h : exec (insertResponse document (key, response)) w = (.ok (), w')) :
    ∃ vs, w'.model.responseVariants =
        w.model.responseVariants.insert (responsePath key.display) vs ∧
      ((∃ path, response.find? "$ref" = some (.text path) ∧
          w.model.responseVariants.get? path = some vs) ∨
        (response.find? "$ref" = none ∧ ∃ name, key = .text name ∧
          Answers (createVariants document (Name.upperCamel name) response) vs)) := by
  rw [insertResponse] at h
  obtain ⟨_, _, h⟩ := of_exec_bind_steady (.require _) h
  cases href : response.find? "$ref" with
  | some reference =>
    dsimp only at h
    rw [href] at h
    obtain ⟨vs, u, hkept, hshare⟩ := of_exec_bind_ok h
    obtain ⟨hsame, path, hpath, hget⟩ := of_cachedVariantsBy hkept
    cases hshare
    exact ⟨vs, by rw [hsame]; rfl, .inl ⟨path, congrArg some hpath, hget⟩⟩
  | none =>
    dsimp only at h
    rw [href] at h
    obtain ⟨name, hname, h⟩ := of_exec_bind_steady (.require _) h
    obtain ⟨vs, u, hlowered, hshare⟩ := of_exec_bind_ok h
    cases hshare
    have hsame := ((createVariants_touches ..).of_exec hlowered).responseVariants_eq
    exact ⟨vs, by rw [← hsame]; rfl,
      .inr ⟨rfl, name, Schema.eq_text_of_text? (of_exec_require_ok (hname w)), w, u, hlowered⟩⟩

/-- What is kept after some shared responses, by a property that may ask for their count: the
responses that are lowered bring it about, and the aliases hand it on. -/
theorem kept_of_forM {P : Nat → String → List Variant → Prop}
    {entries : List (Document × Document)} {k : Nat}
    (hmono : ∀ k path vs, P k path vs → P (k + 1) path vs)
    (hown : ∀ k, ∀ e ∈ entries, e.2.find? "$ref" = none → ∀ name vs, e.1 = .text name →
      Answers (createVariants document (Name.upperCamel name) e.2) vs →
      P (k + 1) (responsePath name) vs)
    (halias : ∀ k, ∀ e ∈ entries, ∀ path vs, e.2.find? "$ref" = some (.text path) →
      P k path vs → P (k + 1) (responsePath e.1.display) vs)
    (hw : ∀ path vs, w.model.responseVariants.get? path = some vs → P k path vs)
    (h : exec (entries.forM (insertResponse document)) w = (.ok (), w')) :
    ∀ path vs, w'.model.responseVariants.get? path = some vs → P (k + entries.length) path vs := by
  induction entries generalizing w k with
  | nil =>
    cases h
    exact hw
  | cons e entries ih =>
    obtain ⟨_, u, he, hrest⟩ := of_exec_bind_ok h
    obtain ⟨vs, hinsert, hvs⟩ := insertResponse_cases he
    have hu : ∀ path vs, u.model.responseVariants.get? path = some vs → P (k + 1) path vs := by
      intro path vs' hget
      rw [hinsert] at hget
      by_cases hpath : path = responsePath e.1.display
      · subst hpath
        rw [Table.get?_insert_self] at hget
        obtain rfl := Option.some.inj hget
        rcases hvs with ⟨target, href, hkept⟩ | ⟨href, name, hname, hlowered⟩
        · exact halias k e List.mem_cons_self target vs href (hw _ _ hkept)
        · rw [hname]
          exact hown k e List.mem_cons_self href name vs hname hlowered
      · rw [Table.get?_insert_of_ne _ _ hpath] at hget
        exact hmono k path vs' (hw path vs' hget)
    have hfinal := ih (fun k e he => hown k e (List.mem_cons_of_mem _ he))
      (fun k e he => halias k e (List.mem_cons_of_mem _ he)) hu hrest
    intro path vs' hget
    have hp := hfinal path vs' hget
    rwa [Nat.add_assoc, Nat.add_comm 1] at hp

/-! ## The stages before the operations -/

/-- Neither the operations nor the implicit header have changed. -/
def SameOperations (m m' : Model) : Prop :=
  m'.operations = m.operations ∧ m'.acceptHeader = m.acceptHeader

instance : IsPreorder Model SameOperations where
  refl _ := ⟨rfl, rfl⟩
  trans _ _ _ h h' := ⟨h'.1.trans h.1, h'.2.trans h.2⟩

theorem SameOperations.of_touches {P : String → Prop} {m m' : Model} (h : m.Touches P m') :
    SameOperations m m' :=
  ⟨h.operations_eq, h.acceptHeader_eq⟩

theorem insertResponse_sameOperations (document : Document) (entry : Document × Document) :
    Keeps SameOperations (insertResponse document entry) := by
  obtain ⟨key, response⟩ := entry
  have hshare : ∀ variants, Keeps SameOperations
      (modifyModel fun m => m.withShared (responsePath key.display) variants) :=
    fun _ => ⟨fun _ => ⟨rfl, rfl⟩⟩
  refine .skip (.require _) fun _ => ?_
  split
  · exact .skip (still_cachedVariantsBy _) hshare
  · refine .skip (.require _) fun name => .bind ?_ hshare
    exact (createVariants_touches ..).mono fun _ _ => .of_touches

/-- A shared header registers paths and nothing else besides. -/
theorem insertHeader_touches (document : Document) (entry : Document × Document) :
    Keeps (Model.Touches fun _ => True) (insertHeader document entry) :=
  (allows_touches.insertComponentHeader (fun _ _ => trivial) entry.2 trivial).bind fun _ => .pure _

/-- **The shared responses and the operations of a construction that answers.** No variants are kept
when the shared responses begin. When the operations begin, what is kept is as the shared responses
have left it, no operation has been added, and there is no implicit header. -/
theorem exists_turns_of_construct {options : ConversionOptions} {docs : Option Docs.Fetcher}
    (hrun : exec (construct document) (start options docs) = (.ok (), w')) :
    ∃ responses u u' v v' ts, sectionOf? document "responses" = some responses ∧
      u.model.responseVariants = [] ∧
      exec (responses.forM (insertResponse document)) u = (.ok (), u') ∧
      v.model.responseVariants = u'.model.responseVariants ∧
      v.model.operations = [] ∧ v.model.acceptHeader = none ∧
      Turns document v ts v' ∧ w'.model = v'.model := by
  obtain ⟨schemas, parameters, bodies, responses, headers, u₁, v₁, u₂, u₃, u₄, u₅, u₆,
    ⟨_, hloop₁, hsame⟩, ⟨_, hloop₂⟩, ⟨_, hloop₃⟩, ⟨hresponses, hloop₄⟩, ⟨_, hloop₅⟩, hloop₆,
    hlast⟩ := exists_all_stages hrun
  have hbefore : (start options docs).model.Touches (fun _ => True) u₃.model := by
    have hschemas : Keeps (Model.Touches fun _ => True) (schemas.forM insertSchema) :=
      .forM fun e _ => (insertSchema_touches e).mono fun _ _ h => h.mono fun _ _ => trivial
    have hparameters : Keeps (Model.Touches fun _ => True) (parameters.forM insertParameter) :=
      .forM fun e _ => (insertParameter_touches e).mono fun _ _ h => h.mono fun _ _ => trivial
    have hbodies : Keeps (Model.Touches fun _ => True) (bodies.forM insertBody) :=
      .forM fun e _ => (insertBody_touches e).mono fun _ _ h => h.mono fun _ _ => trivial
    exact (hschemas.of_exec hloop₁).trans
      ((hsame ▸ hparameters.of_exec hloop₂).trans (hbodies.of_exec hloop₃))
  have hheaders : u₄.model.Touches (fun _ => True) u₅.model :=
    (Keeps.forM fun e _ => insertHeader_touches document e).of_exec hloop₅
  have hresponses' : SameOperations u₃.model u₄.model :=
    (Keeps.forM fun e _ => insertResponse_sameOperations document e).of_exec hloop₄
  have hall := trans_of SameOperations (.of_touches hbefore)
    (trans_of SameOperations hresponses' (.of_touches hheaders))
  obtain ⟨ts, hturns⟩ := exists_turns hloop₆
  exact ⟨responses, u₃, u₄, u₅, u₆, ts, hresponses, hbefore.responseVariants_eq, hloop₄,
    hheaders.responseVariants_eq, hall.1, hall.2, hturns, hlast⟩

/-! ## The unions of a document -/

/-- The union that an operation gets in its turn. -/
theorem unionOf_of_turn (t : Turn document) :
    ∃ specName m', m'.responseVariants = t.before.model.responseVariants ∧
      UnionOf document specName (responsesOf t.source) m' t.after.model t.operation.response := by
  obtain ⟨parts⟩ := exists_parts t.create_eq
  have hunion := unionOf_of_createResponses parts.responses_exec
  rw [← parts.model_eq] at hunion
  refine ⟨parts.responseName, _, ?_, hunion⟩
  rw [← hunion.shared_eq]
  exact (same_of_create t.create_eq).2

/-- A media type object whose values are texts. -/
def textMedia : Document :=
  .object [(.text "schema", .object [(.text "type", .text "string")])]

/-- A response with two content types, and another name for it. -/
def sharedResponses : Document :=
  .object [
    (.text "Base", .object [(.text "content", .object
      [(.text "text/plain", textMedia), (.text "text/html", textMedia)])]),
    (.text "Alias", .object [(.text "$ref", .text "#/components/responses/Base")])]

/-- The responses of an operation that declares the default one first. -/
def mixedResponses : Document :=
  .object [
    (.text "default", .object [(.text "$ref", .text "#/components/responses/Alias")]),
    (.text "204", .object [(.text "description", .text "nothing")])]

end TypedApi.Conversion
