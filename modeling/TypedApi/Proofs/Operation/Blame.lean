import TypedApi.Proofs.Operation.Touches
import TypedApi.Proofs.Schema.Blame
/-!
Lowering operations fails only over the document.

A parameter, body or header that is given a path needs it to be free, and then
takes it for its own item. Headers are different: a shared header is lowered
when it is first needed, and a chain of references between shared headers
registers every path along it. All of these lead to the one item at the end of
the chain, so each path along it is free or leads to the right item when its
turn comes.
-/

set_option autoImplicit false

namespace TypedApi

open Build

/-! ## Following references -/

namespace Document

/-- A walk along references fails over one that leads nowhere, or over a malformed value. -/
theorem failsOnly_chain (document value : Document) :
    FailsOnly (fun e => isSourceFailure e = true ∨ e = .malformed) (chain document value) := by
  have hresolve : ∀ reference,
      FailsOnly (fun e => isSourceFailure e = true ∨ e = .malformed)
        (document.resolve reference) := by
    intro reference
    rw [resolve]
    split
    · refine .foldlM (fun current segment _ => ?_) _
      rw [stepInto.eq_def]
      split
      · split
        · exact .ok _
        · exact .fail (.inl rfl)
      · split
        · exact .ok _
        · exact .fail (.inl rfl)
      · exact .fail (.inl rfl)
    · exact .fail (.inl rfl)
  have hfrom : ∀ fuel seen value,
      FailsOnly (fun e => isSourceFailure e = true ∨ e = .malformed)
        (chainFrom document fuel seen value) := by
    intro fuel
    induction fuel with
    | zero => exact fun _ _ => .ok _
    | succ fuel ih =>
      intro seen value
      rw [chainFrom]
      split
      · exact .ok _
      · refine .ite (fun _ => .fail (.inl rfl)) fun _ => ?_
        split
        · exact .error (hresolve _ _ ‹_›)
        · split
          · exact .error (ih _ _ _ ‹_›)
          · exact .ok _
      · exact .error (.inr rfl)
  exact hfrom _ _ _

/-- A reference that leads nowhere is blamed on the document once it is blamed on the reference. -/
theorem overDocument_blameReference {α : Type} (reference : String) {x : Except Failure α}
    (h : FailsOnly (fun e => isSourceFailure e = true ∨ e = .malformed) x) :
    FailsOnly Failure.OverDocument (blameReference reference x) := by
  cases x with
  | ok a => exact .ok a
  | error e =>
    refine .ite (fun _ => .error rfl) fun hsource => .error ?_
    rw [(h e rfl).resolve_left hsource]
    exact Failure.overDocument_malformed

theorem overDocument_followOrBlame (document value : Document) :
    FailsOnly Failure.OverDocument (document.followOrBlame value) :=
  overDocument_blameReference _ (.map (failsOnly_chain _ _) _)

/-- It is blamed on the reference, unless it is over a malformed value on the way. -/
theorem of_followOrBlame_error {document value : Document} {e : Failure}
    (h : document.followOrBlame value = .error e) :
    e.problem = .unknownReference (referenceText value) ∨
      document.chain value = .error .malformed := by
  rw [followOrBlame, follow] at h
  cases hchain : document.chain value with
  | ok links =>
    rw [hchain] at h
    cases h
  | error f =>
    rw [hchain, Except.map, blameReference] at h
    split at h
    · cases h
      exact .inl rfl
    · rw [(failsOnly_chain _ _ f hchain).resolve_left ‹_›]
      exact .inr rfl

end Document

namespace Operation

variable {m m' : Model}

/-! ## Reading parameters -/

theorem overDocument_singleContent (name content : Document) :
    FailsOnly Failure.OverDocument (singleContent name content) := by
  unfold singleContent
  refine .bind (.orMalformed Failure.overDocument_malformed _) fun count _ => ?_
  refine .ite (fun _ => .bind (.fail rfl) fun _ _ => ?_) fun _ => ?_
  -- what follows the check of the count stands on both branches
  all_goals
    dsimp only
    split
    · exact .ok _
    · exact .error Failure.overDocument_malformed

theorem overDocument_location (name location : Document) :
    FailsOnly Failure.OverDocument (Location.parse name location) :=
  .ite (fun _ => .ok _) fun _ => .ite (fun _ => .ok _) fun _ => .ite (fun _ => .ok _) fun _ =>
    .ite (fun _ => .fail rfl) fun _ => .error rfl

theorem reads_parameterSchema (name param : Document) : Reads (parameterSchema name param) := by
  unfold parameterSchema
  split
  · exact .bind (.lift (overDocument_singleContent _ _)) fun _ =>
      .bind (.field _ _) fun _ => .pure _
  · exact .pure _

theorem reads_namesFor (name : Document) : Reads (namesFor name) :=
  .bind (.require _) fun _ => .pure _

theorem reads_makeParameter (param : Document) (item : Ref) : Reads (makeParameter param item) :=
  .bind (.require _) fun _ => .bind (.require _) fun _ =>
    .bind (.lift (overDocument_location _ _)) fun _ => .pure _

theorem overDocument_mergeParameters (document : Document) (pathEntries ownEntries : List Document) :
    FailsOnly Failure.OverDocument (mergeParameters document pathEntries ownEntries) := by
  refine .bind (.foldlM (fun acc entry _ => .bind ?_ fun _ _ => .ok _) _) fun _ _ => .ok _
  refine .bind (Document.overDocument_followOrBlame _ _) fun param _ => ?_
  refine .bind (.orMalformed Failure.overDocument_malformed _) fun _ _ => ?_
  exact .ite (fun _ => .ok _) fun _ => .error Failure.overDocument_malformed

/-! ## Parameters -/

theorem referredItem_blames {names : Build (String × String)} (hnames : Reads names)
    (path : Document) : Blames m (referredItem names path) :=
  .skip (.require _) fun _ =>
    .ite (fun _ => .skip hnames fun _ => .addScalar (by simp)) fun _ => .reads (Blames.named _)

/-- A parameter is stored under its path if the path is free. -/
theorem insertParameter_blames {path : Option String} (param : Document)
    (h : ∀ p, path = some p → m.Free p) : Blames m (insertParameter path param) := by
  refine .skip (.require _) fun _ => .skip (.lift (overDocument_location _ _)) fun location => ?_
  refine .skip (reads_parameterSchema _ _) fun ⟨contentType, schema⟩ => ?_
  refine .skip (.field _ _) fun reference => ?_
  extract_lets description jp
  -- the items that are made on the way take no path
  have hjp : ∀ r m', m.SamePaths m' → Blames m' (jp r) := by
    intro r m' hpaths
    have hmark : ∀ m'', Blames m'' (do
        if location = .header then modifyItem r fun item => { item with implHeader := true }
        return r) :=
      fun m'' => .ite (fun _ => .bind (.modifyItem r _) fun _ _ _ => .pure r) fun _ => .pure r
    cases path with
    | none => exact hmark m'
    | some p => exact .bind (.registerFree (hpaths.free (h p rfl))) fun _ m'' _ => hmark m''
  refine .ite (fun _ => ?_) fun _ => ?_
  · refine .skip (reads_namesFor _) fun ⟨specName, generatedName⟩ => ?_
    refine .bind (Schema.addInline_blames _ _ _ _ _ (by simp)) fun r m₁ h₁ => ?_
    have hgrows : m.Grows m₁ := (Schema.addInline_grows ..).of_leaves h₁
    refine .bind (.modifyItem r _) fun _ m₂ h₂ => hjp r m₂ ?_
    exact hgrows.samePaths.trans ((Keeps.remark r _).of_leaves h₂)
  · refine .bind (referredItem_blames (reads_namesFor _) _) fun target m₁ h₁ => ?_
    have hgrows : m.Grows m₁ :=
      (referredItem_grows (steady_namesFor _).still _).of_leaves h₁
    refine .ite (fun _ => hjp _ _ hgrows.samePaths) fun _ => ?_
    refine .skip (reads_namesFor _) fun ⟨specName, generatedName⟩ => ?_
    refine .skip (.textOrNull _) fun docs => .skip (.optionalText _) fun contentType => ?_
    refine .bind (.addInner _) fun r m₂ h₂ => hjp r m₂ ?_
    have hgrows' : m₁.Grows m₂ := (Keeps.addItem _).of_leaves h₂
    exact hgrows.samePaths.trans hgrows'.samePaths

theorem insertComponentParameter_blames {path : String} (param : Document) (h : m.Free path) :
    Blames m (insertComponentParameter path param) := by
  refine .skip (.require _) fun _ => ?_
  split
  · exact .skip (Blames.namedBy _) fun r => .bind (.registerFree h) fun _ _ _ => .pure r
  · exact insertParameter_blames param (by rintro _ ⟨⟩; exact h)

theorem convertParameter_blames (document entry : Document) :
    Blames m (convertParameter document entry) := by
  refine .skip (.require _) fun _ => ?_
  split
  · exact .bind (insertParameter_blames _ (by simp)) fun _ _ _ => .pure _
  · exact .skip (.lift (Document.overDocument_followOrBlame _ _)) fun _ =>
      .skip (Blames.namedBy _) fun _ => .pure _

/-! ## Bodies -/

theorem mediaItem_blames (specName generatedName : String) (schema contentType : Document) :
    Blames m (mediaItem specName generatedName schema contentType) := by
  refine .ite (fun _ => .skip (.optionalText _) fun _ => .pure _) fun _ =>
    .ite (fun _ => Schema.lower_blames ..) fun _ => .skip (.require _) fun path => ?_
  refine .ite (fun _ => .skip (.optionalText _) fun _ => .pure _) fun _ => ?_
  exact .bind (Schema.convert_blames ..) fun _ _ _ => .skip (.optionalText _) fun _ => .pure _

theorem reads_sharesReference (content : List (Document × Document)) :
    Reads (sharesReference content) := by
  refine .bind (.mapM (fun p => .bind (.field _ _) fun d =>
    .ite (.pure _) (.throw Failure.overDocument_malformed)) _) fun references => ?_
  split <;> exact .pure _

theorem bodyVariant_blames (required : Bool) (entry : Document × Document) :
    Blames m (bodyVariant required entry) :=
  .skip (.require _) fun _ => .skip (.field _ _) fun _ =>
    .bind (mediaItem_blames ..) fun _ _ _ => .bind (.addInner _) fun _ _ _ => .pure _

theorem bodyItem_blames (specName : String) (required : Bool)
    (content : List (Document × Document)) : Blames m (bodyItem specName required content) := by
  unfold bodyItem
  dsimp only
  split
  · exact mediaItem_blames ..
  · exact .skip (.field _ _) fun _ => mediaItem_blames ..
  · refine .skip (reads_sharesReference _) fun shared => .ite (fun _ => ?_) fun _ => ?_
    · exact .skip (.field _ _) fun _ => mediaItem_blames ..
    · exact .bind (.mapM fun _ _ _ => bodyVariant_blames ..) fun _ _ _ => .pure _

theorem createBody_blames (specName : String) {path : Option String} (body : Document)
    (h : ∀ p, path = some p → m.Free p) : Blames m (createBody specName path body) := by
  refine .skip (.field _ _) fun _ => .skip (.require _) fun content => ?_
  refine .bind (bodyItem_blames ..) fun item m' hleaves => .addItem fun p hp => ?_
  have hgrows : m.Grows m' := (bodyItem_grows ..).of_leaves hleaves
  exact hgrows.samePaths.free (h p hp)

theorem reads_referredBody (body : Document) : Reads (referredBody body) :=
  .bind (.field _ _) fun _ => Blames.namedBy _

/-! ## Headers -/

/-- A path is registered for the item of a reference. -/
def RegisteredFor (m : Model) (path : String) (r : Ref) : Prop :=
  ∃ index, r.index? = some index ∧ m.namedReferences.get? path = some index

/-- A path is free, or registered for the item of a reference. -/
def OpenFor (m : Model) (path : String) (r : Ref) : Prop :=
  ∀ index, m.namedReferences.get? path = some index → r.index? = some index

/-- Every path that has become registered is so for the item of a reference. -/
def NewPathsLead (m m' : Model) (r : Ref) : Prop :=
  ∀ path, m.Free path → OpenFor m' path r

theorem openFor_of_free {path : String} {r : Ref} (h : m.Free path) : OpenFor m path r := by
  intro index hget
  rw [h] at hget
  cases hget

theorem RegisteredFor.openFor {path : String} {r : Ref} (h : RegisteredFor m path r) :
    OpenFor m path r := by
  obtain ⟨index, hindex, hget⟩ := h
  intro old hold
  rw [hget] at hold
  cases hold
  exact hindex

/-- Where only one path may be touched, and is registered for an item, new paths lead there. -/
theorem newPathsLead_of_touches {path : String} {r : Ref} (h : m.Touches (· = path) m')
    (hpath : RegisteredFor m' path r) : NewPathsLead m m' r := by
  intro p hfree index hget
  have hmem : p ∈ m'.namedReferences.keys :=
    List.mem_map_of_mem (Table.mem_of_get?_eq_some hget)
  rcases h.mem_paths hmem with hold | rfl
  · exact (Table.get?_eq_none_iff.mp hfree hold).elim
  · exact hpath.openFor index hget

/-- One more path for the item. -/
theorem NewPathsLead.withPath {r : Ref} (h : NewPathsLead m m' r) {index : Int}
    (hindex : r.index? = some index) (path : String) :
    NewPathsLead m (m'.withPath path index) r := by
  intro p hfree old hget
  by_cases heq : p = path
  · subst heq
    rw [Model.withPath, Table.get?_insert_self] at hget
    cases hget
    exact hindex
  · exact h p hfree old ((Table.get?_insert_of_ne _ _ heq).symm.trans hget)

theorem reads_headerSchema (specName header : Document) : Reads (headerSchema specName header) :=
  .ite (.bind (.lift (overDocument_singleContent _ _)) fun _ => .field _ _) (.pure _)

/-- A header is stored under its path if the path is free. -/
theorem createHeader_blames (specName : Document) {path : Option String} (header : Document)
    (h : ∀ p, path = some p → m.Free p) : Blames m (createHeader specName path header) := by
  refine .skip (.require _) fun name => .skip (.deconflict _) fun generatedName => ?_
  refine .skip (.require _) fun _ => .skip (reads_headerSchema _ _) fun schema => ?_
  extract_lets description jp
  -- the path is registered here for the second time, unless the item was there before
  have hjp : ∀ r m', (∀ p, path = some p → OpenFor m' p r) → Blames m' (jp r) := by
    intro r m' hopen
    have hmark : ∀ m'', Blames m'' (do
        modifyItem r fun item => { item with implHeader := true }
        return r) := fun m'' => .bind (.modifyItem r _) fun _ _ _ => .pure r
    cases path with
    | none => exact hmark m'
    | some p => exact .bind (.registerPath (hopen p rfl)) fun _ m'' _ => hmark m''
  have hadded : ∀ (item : Item) (m₁ m₂ : Model) (r : Ref),
      Leaves (addItem item path) m₁ r m₂ → ∀ p, path = some p → OpenFor m₂ p r := by
    rintro item m₁ m₂ r hleaves p rfl
    exact RegisteredFor.openFor hleaves.of_addItem
  refine .ite (fun _ => .bind (.addScalar h) fun r m₁ h₁ => hjp r m₁ (hadded _ _ _ r h₁)) fun _ =>
    .skip (.require _) fun isReference => .ite (fun _ => ?_) fun _ => ?_
  · refine .skip (.field _ _) fun reference => ?_
    refine .bind (referredItem_blames (.pure _) _) fun inner m₁ h₁ => ?_
    have hgrows : m.Grows m₁ := (referredItem_grows (.pure _) _).of_leaves h₁
    have hfree : ∀ p, path = some p → m₁.Free p := fun p hp => hgrows.samePaths.free (h p hp)
    refine .ite (fun _ => hjp _ _ fun p hp => openFor_of_free (hfree p hp)) fun _ => ?_
    refine .skip (.textOrNull _) fun docs => ?_
    exact .bind (.addItem hfree) fun r m₂ h₂ => hjp r m₂ (hadded _ _ _ r h₂)
  · refine .bind (Schema.addInline_blames _ _ _ _ _ h) fun r m₁ h₁ => ?_
    refine .bind (.modifyItem r _) fun _ m₂ h₂ => hjp r m₂ fun p hp => ?_
    obtain ⟨item, m₀, _, hadd⟩ := h₁.of_bind
    have hpaths : m₁.SamePaths m₂ := (Keeps.remark r _).of_leaves h₂
    rw [OpenFor, hpaths]
    exact hadded _ _ _ r hadd p hp

/-- A header that has been stored was registered and marked in the end, whatever it was made from. -/
theorem createHeader_ends {specName : Document} {path : Option String} {header : Document}
    {r : Ref} (h : Leaves (createHeader specName path header) m r m') :
    ∃ m₁, (∀ p, path = some p → RegisteredFor m₁ p r) ∧
      Leaves (modifyItem r fun item => { item with implHeader := true }) m₁ () m' := by
  obtain ⟨_, _, _, h⟩ := h.of_bind
  obtain ⟨_, _, _, h⟩ := h.of_bind
  obtain ⟨_, _, _, h⟩ := h.of_bind
  obtain ⟨schema, m₁, _, h⟩ := h.of_bind
  revert h
  extract_lets description jp
  have hjp : ∀ s (m₁ : Model), Leaves (jp s) m₁ r m' → ∃ m₂, (∀ p, path = some p →
      RegisteredFor m₂ p r) ∧
      Leaves (modifyItem r fun item => { item with implHeader := true }) m₂ () m' := by
    intro s m₁ hleaves
    cases path with
    | none =>
      obtain ⟨_, m₃, hmark, hpure⟩ := Leaves.of_bind hleaves
      obtain ⟨rfl, rfl⟩ := hpure.of_pure
      exact ⟨m₁, by simp, hmark⟩
    | some p =>
      obtain ⟨_, m₂, hregister, hrest⟩ := Leaves.of_bind hleaves
      obtain ⟨_, m₃, hmark, hpure⟩ := hrest.of_bind
      obtain ⟨rfl, rfl⟩ := hpure.of_pure
      obtain ⟨index, hindex, rfl⟩ := hregister.of_registerPath
      refine ⟨_, ?_, hmark⟩
      rintro _ ⟨⟩
      exact ⟨index, hindex, Table.get?_insert_self _ _ _⟩
  intro h
  split at h
  · obtain ⟨s, m₂, _, h⟩ := h.of_bind
    exact hjp s m₂ h
  · obtain ⟨isReference, m₂, _, h⟩ := h.of_bind
    split at h
    · obtain ⟨_, _, _, h⟩ := h.of_bind
      obtain ⟨inner, m₃, _, h⟩ := h.of_bind
      split at h
      · exact hjp _ _ h
      · obtain ⟨_, _, _, h⟩ := h.of_bind
        obtain ⟨s, m₄, _, h⟩ := h.of_bind
        exact hjp s m₄ h
    · obtain ⟨s, m₃, _, h⟩ := h.of_bind
      obtain ⟨_, m₄, _, h⟩ := h.of_bind
      exact hjp s m₄ h

/-- It is what its path leads to. -/
theorem registeredFor_of_createHeader {specName : Document} {path : String} {header : Document}
    {r : Ref} (h : Leaves (createHeader specName (some path) header) m r m') :
    RegisteredFor m' path r := by
  obtain ⟨m₁, hregistered, hmark⟩ := createHeader_ends h
  have hpaths : m₁.SamePaths m' := (Keeps.remark r _).of_leaves hmark
  obtain ⟨index, hindex, hget⟩ := hregistered path rfl
  exact ⟨index, hindex, by rw [hpaths]; exact hget⟩

theorem createShared_blames (specName : Document) {path : String} (header : Document)
    (h : m.Free path) : Blames m (createShared specName path header) :=
  .bind (createHeader_blames _ _ (by rintro _ ⟨⟩; exact h)) fun r _ _ =>
    .bind (.modifyItem r _) fun _ _ _ => .pure r

/-- So is one that everyone may use. -/
theorem registeredFor_of_createShared {specName : Document} {path : String} {header : Document}
    {r : Ref} (h : Leaves (createShared specName path header) m r m') : RegisteredFor m' path r := by
  obtain ⟨s, m₁, hcreate, h⟩ := h.of_bind
  obtain ⟨_, m₂, hmark, h⟩ := h.of_bind
  obtain ⟨rfl, rfl⟩ := h.of_pure
  obtain ⟨index, hindex, hget⟩ := registeredFor_of_createHeader hcreate
  have hpaths : m₁.SamePaths m' := (Keeps.remark r _).of_leaves hmark
  exact ⟨index, hindex, by rw [hpaths]; exact hget⟩

theorem newPathsLead_of_createShared {specName : Document} {path : String} {header : Document}
    {r : Ref} (h : Leaves (createShared specName path header) m r m') : NewPathsLead m m' r := by
  have htouches : m.Touches (· = path) m' :=
    (createShared_touches (P := (· = path)) specName header rfl).of_leaves h
  exact newPathsLead_of_touches htouches (registeredFor_of_createShared h)

/-- **All paths along a chain lead to the header at its end.** The induction is on the chain. -/
theorem newPathsLead_of_headerAlong {links : List Document.Link} {r : Ref}
    (h : Leaves (headerAlong links) m r m') : NewPathsLead m m' r := by
  induction links generalizing m' with
  | nil =>
    obtain ⟨w, w', _, hexec, _⟩ := h
    cases hexec
  | cons link rest ih =>
    have h := Leaves.of_model h
    split at h
    · obtain ⟨_, rfl⟩ := h.of_pure
      exact fun path hfree => openFor_of_free hfree
    · split at h
      · obtain ⟨w, w', _, hexec, _⟩ := h
        cases hexec
      · split at h
        · exact newPathsLead_of_createShared h
        · obtain ⟨s, m₁, halong, h⟩ := h.of_bind
          obtain ⟨_, m₂, hregister, h⟩ := h.of_bind
          obtain ⟨rfl, rfl⟩ := h.of_pure
          obtain ⟨index, hindex, rfl⟩ := hregister.of_registerPath
          exact (ih halong).withPath hindex _

/-- The headers along a chain are made over the document only: where the turn of a path comes, it is
free or leads to the header that was made after it. -/
theorem headerAlong_blames (links : List Document.Link) : Blames m (headerAlong links) := by
  induction links generalizing m with
  | nil => exact .reads (.throw rfl)
  | cons link rest ih =>
    refine .model ?_
    split
    · exact .pure _
    · have hfree : m.Free link.reference := ‹_›
      split
      · exact .problem rfl
      · refine .ite (fun _ => createShared_blames _ _ hfree) fun _ => .bind ih fun r m₁ h₁ => ?_
        have hopen := newPathsLead_of_headerAlong h₁ link.reference hfree
        exact .bind (.registerPath hopen) fun _ _ _ => .pure r

theorem overDocument_chain (document header : Document) (path : String) :
    FailsOnly Failure.OverDocument (Document.blameReference path (document.chain header)) :=
  Document.overDocument_blameReference _ (Document.failsOnly_chain _ _)

theorem referredHeader_blames (document reference header : Document) :
    Blames m (referredHeader document reference header) := by
  unfold referredHeader
  split
  · refine .model ?_
    split
    · exact .pure _
    · have hchain : ∀ path, Blames m (do
          let links ← lift (Document.blameReference path (document.chain header))
          headerAlong links) := fun path =>
        .skip (.lift (overDocument_chain _ _ path)) fun links => headerAlong_blames links
      exact .ite (fun _ => .skip (.problem rfl) fun _ => hchain _) fun _ => hchain _
  · exact .reads (.throw rfl)

theorem newPathsLead_of_referredHeader {document reference header : Document} {r : Ref}
    (h : Leaves (referredHeader document reference header) m r m') : NewPathsLead m m' r := by
  unfold referredHeader at h
  split at h
  · have h := h.of_model
    split at h
    · obtain ⟨_, rfl⟩ := h.of_pure
      exact fun path hfree => openFor_of_free hfree
    · split at h
      · obtain ⟨_, _, ⟨w, w', _, hexec, _⟩, _⟩ := h.of_bind
        cases hexec
      · obtain ⟨links, m₁, hlinks, h⟩ := h.of_bind
        rw [hlinks.of_still (.lift _)] at h
        exact newPathsLead_of_headerAlong h
  · obtain ⟨w, w', _, hexec, _⟩ := h
    cases hexec

theorem convertHeader_blames (document specName header : Document) :
    Blames m (convertHeader document specName header) :=
  .skip (.field _ _) fun _ => .ite (fun _ => createHeader_blames _ _ (by simp)) fun _ =>
    referredHeader_blames ..

theorem newPathsLead_of_convertHeader {document specName header : Document} {r : Ref}
    (h : Leaves (convertHeader document specName header) m r m') : NewPathsLead m m' r := by
  obtain ⟨reference, m₁, hread, h⟩ := h.of_bind
  rw [hread.of_still (.field _ _)] at h
  split at h
  -- a header without a path registers none
  · intro p hfree index hget
    have htouches : m.Touches (fun _ => False) m' :=
      (createHeader_touches specName header (by simp)).of_leaves h
    have hmem : p ∈ m'.namedReferences.keys :=
      List.mem_map_of_mem (Table.mem_of_get?_eq_some hget)
    rcases htouches.mem_paths hmem with hold | hnone
    · exact (Table.get?_eq_none_iff.mp hfree hold).elim
    · exact hnone.elim
  · exact newPathsLead_of_referredHeader h

/-- **A shared header is added over the document only**, whether responses have needed it before or
not. -/
theorem insertComponentHeader_blames (document specName header : Document) :
    Blames m (insertComponentHeader document specName header) := by
  refine .model ?_
  split
  · exact .pure _
  · have hfree : m.Free (headersPrefix ++ specName.display) := ‹_›
    refine .skip (.require _) fun isReference => .ite (fun _ => ?_) fun _ =>
      createShared_blames _ _ hfree
    refine .bind (convertHeader_blames ..) fun r m₁ h₁ => ?_
    exact .bind (.registerPath (newPathsLead_of_convertHeader h₁ _ hfree)) fun _ _ _ => .pure r

/-! ## Responses -/

theorem addPayload_blames (specName generatedName : String) (schema contentType docs : Document) :
    Blames m (addPayload specName generatedName schema contentType docs) := by
  have hscalar : ∀ scalar, Blames m (do
      let r ← addScalar specName generatedName none scalar
      modifyItem r fun item => { item with docs := docs }
      return r) := fun _ =>
    .bind (.addScalar (by simp)) fun r _ _ => .bind (.modifyItem r _) fun _ _ _ => .pure r
  refine .ite (fun _ => hscalar _) fun _ => .skip (.field _ _) fun reference =>
    .ite (fun _ => ?_) fun _ => ?_
  · exact .bind (Schema.addInline_blames _ _ _ _ _ (by simp)) fun r _ _ =>
      .bind (.modifyItem r _) fun _ _ _ => .pure r
  · exact .skip (.require _) fun path => .ite (fun _ => hscalar _) fun _ =>
      Schema.convert_blames ..

theorem headerMember_blames (document : Document) (specName : String)
    (entry : String × Document) : Blames m (headerMember document specName entry) := by
  obtain ⟨name, header⟩ := entry
  have hrest : Blames m (do
      let target ← lift (document.followOrBlame header)
      let definition ← convertHeader document (.text name) header
      return (name, ({ definition, inlineOption := !(← field target "required").holds } : Member))) :=
    .skip (.lift (Document.overDocument_followOrBlame _ _)) fun _ =>
      .bind (convertHeader_blames ..) fun _ _ _ => .skip (.field _ _) fun _ => .pure _
  exact .ite (fun _ => .skip (.problem rfl) fun _ => hrest) fun _ => hrest

theorem wrapWithHeaders_blames (document : Document) (name : String)
    (headers : List (String × Document)) (body : Ref) (contentType docs : Document) :
    Blames m (wrapWithHeaders document name headers body contentType docs) :=
  .bind (.mapM fun _ _ _ => headerMember_blames ..) fun _ _ _ =>
    .skip (.textOrNull _) fun _ => .skip (.optionalText _) fun _ => .addInner _

theorem reads_ownHeaders (response : Document) : Reads (ownHeaders response) :=
  .bind (.field _ _) fun _ => .bind (.require _) fun _ =>
    .bind (.mapM (fun _ => .bind (.require _) fun _ => .pure _) _) fun _ => .pure _

theorem reads_contentEntries (response : Document) : Reads (contentEntries response) :=
  .bind (.field _ _) fun _ => .bind (.require _) fun _ =>
    .bind (.mapM (fun _ => .bind (.field _ _) fun _ => .pure _) _) fun _ => .pure _

theorem responseVariant_blames (document : Document) (itemName : String) (multiple : Bool)
    (headers : List (String × Document)) (docs : Document) (entry : Document × Document) :
    Blames m (responseVariant document itemName multiple headers docs entry) := by
  obtain ⟨contentType, schema⟩ := entry
  unfold responseVariant
  dsimp -zeta only
  extract_lets tag jp
  have hjp : ∀ name, Blames m (jp name) := fun name =>
    .bind (addPayload_blames ..) fun payload _ _ => .ite (fun _ => .pure _) fun _ =>
      .bind (wrapWithHeaders_blames ..) fun _ _ _ => .pure _
  exact .ite (fun _ => .skip (.require _) fun _ => hjp _) fun _ => hjp _

theorem createVariants_blames (document : Document) (itemName : String) (response : Document) :
    Blames m (createVariants document itemName response) := by
  refine .skip (.field _ _) fun _ => .skip (.require _) fun content => ?_
  refine .skip (reads_ownHeaders _) fun headers => .skip (.field _ _) fun docs => ?_
  refine .skip (reads_contentEntries _) fun entries => ?_
  exact .mapM fun _ _ _ => responseVariant_blames ..

theorem reads_cachedVariantsBy (path : Document) : Reads (cachedVariantsBy path) := by
  unfold cachedVariantsBy
  split
  · refine .bind .model fun m => .lift ?_
    rw [Model.cachedVariants]
    split
    · exact .ok _
    · exact .fail rfl
  · exact .ite (.problem rfl) (.throw rfl)

theorem overDocument_statusName (status : String) :
    FailsOnly Failure.OverDocument (statusName status) := by
  rw [statusName]
  refine .ite (fun _ => .ok _) fun _ => .ite (fun _ => ?_) fun _ => ?_
  · exact .map (.orMalformed Failure.overDocument_malformed _) _
  · split
    · exact .ok _
    · exact .fail rfl

theorem statusVariants_blames (document : Document) (generatedName : String)
    (entry : String × Document) : Blames m (statusVariants document generatedName entry) := by
  obtain ⟨status, response⟩ := entry
  refine .skip (.lift (overDocument_statusName _)) fun name => .skip (.require _) fun _ => ?_
  split
  · exact .skip (reads_cachedVariantsBy _) fun _ => .pure _
  · exact .bind (createVariants_blames ..) fun _ _ _ => .pure _

theorem createResponses_blames (document : Document) (specName : String) (responses : Document) :
    Blames m (createResponses document specName responses) :=
  .skip (.require _) fun _ =>
    .bind (.mapM fun _ _ _ => statusVariants_blames ..) fun _ _ _ => .addInner _

/-! ## Operations -/

theorem reads_specNameOf (operationId : Document) (suffix : String) (verb : Verb)
    (path : Document) : Reads (specNameOf operationId suffix verb path) :=
  .ite (.bind (.require _) fun _ => .pure _) (.bind (.require _) fun _ => .pure _)

theorem acceptParameter_blames : Blames m acceptParameter := by
  have hkeep : ∀ r (m' : Model), Blames m' (modifyModel fun m => m.withAccept r) := by
    intro r m'
    constructor
    rintro hopen w rfl
    exact ⟨.ok (), hopen⟩
  refine .model ?_
  extract_lets jp
  have hjp : ∀ r (m' : Model), Blames m' (jp r) := fun r _ => .pure _
  split
  · exact hjp _ _
  · exact .bind (.addInner _) fun r m' _ => .bind (hkeep r m') fun _ m'' _ => hjp r m''

theorem combine_blames (kind specName label : String) (members : Table Member) :
    Blames m (combine kind specName label members) :=
  .ite (fun _ => .pure _) fun _ => .bind (.addInner _) fun _ _ _ => .pure _

theorem reads_anySeveral (document responses : Document) :
    Reads (anySeveral document responses) := by
  refine .bind (.require _) fun fields => .lift (.anyM fun p _ => ?_)
  refine .bind (Document.overDocument_followOrBlame _ _) fun _ _ => ?_
  refine .bind (.orMalformed Failure.overDocument_malformed _) fun _ _ => ?_
  exact .bind (.orMalformed Failure.overDocument_malformed _) fun _ _ => .ok _

theorem reads_documentation (operation : Document) : Reads (documentation operation) := by
  refine .bind .get fun w => ?_
  split
  · exact .bind (.require _) fun _ => .bind (.fetchDocs _ _ _) fun _ => .pure _
  · exact .pure _

theorem bodyOf_blames (verb : Verb) (path operationId operation : Document) :
    Blames m (bodyOf verb path operationId operation) := by
  refine .ite (fun _ => .pure _) fun _ => .skip (.require _) fun _ => .ite (fun _ => ?_) fun _ => ?_
  · exact .skip (reads_referredBody _) fun _ => .pure _
  · exact .skip (reads_specNameOf ..) fun _ =>
      .bind (createBody_blames _ _ (by simp)) fun _ _ _ => .pure _

theorem parametersOf_blames (document pathItem operation : Document) :
    Blames m (parametersOf document pathItem operation) := by
  have hentries : ∀ d : Document, Reads (do
      require ((← field d "parameters").orElse (.array [])).elements?) :=
    fun d => .bind (.field _ _) fun _ => .require _
  refine .skip (hentries _) fun _ => .skip (hentries _) fun _ => ?_
  refine .skip (.lift (overDocument_mergeParameters _ _ _)) fun _ => .mapM fun _ _ _ => ?_
  exact .bind (convertParameter_blames ..) fun _ _ _ => .reads (reads_makeParameter _ _)

/-- **An operation is lowered over the document only.** -/
theorem create_blames (document path : Document) (verb : Verb) (pathItem operation : Document) :
    Blames m (create document path verb pathItem operation) := by
  refine .skip (.field _ _) fun operationId => ?_
  extract_lets label responses
  refine .bind (parametersOf_blames ..) fun declared m₁ _ => ?_
  extract_lets declaredHeaders rest choose
  have hrest : ∀ accept (m' : Model), Blames m' (rest accept) := fun accept m' =>
    .skip (reads_specNameOf ..) fun _ => .bind (combine_blames ..) fun _ _ _ =>
    .skip (reads_specNameOf ..) fun _ => .bind (combine_blames ..) fun _ _ _ =>
    .bind (bodyOf_blames ..) fun _ _ _ => .skip (reads_specNameOf ..) fun _ =>
    .bind (createResponses_blames ..) fun _ _ _ =>
    .skip (.field _ _) fun _ => .skip (.field _ _) fun _ => .skip (reads_documentation _) fun _ =>
    .skip (.require _) fun _ => .skip (.optionalText _) fun _ => .skip (.optionalText _) fun _ =>
    .skip (.optionalText _) fun _ => .pure _
  have hchoose : ∀ implicit, Blames m₁ (choose implicit) := fun implicit =>
    .ite (fun _ => .bind (.bind acceptParameter_blames fun _ _ _ => .pure _)
      fun accept m₂ _ => hrest accept m₂) fun _ => hrest [] m₁
  exact .ite (fun _ => hchoose false) fun _ => .skip (reads_anySeveral _ _) hchoose

theorem insertKey_blames (document path pathItem : Document) (entry : Document × Document) :
    Blames m (insertKey document path pathItem entry) := by
  refine .skip (.require _) fun key => .ite (fun _ => .pure ()) fun _ => ?_
  have hverb : FailsOnly Failure.OverDocument (Verb.parse key) := by
    rw [Verb.parse]
    split
    · exact .ok _
    · exact .error rfl
  refine .skip (.lift hverb) fun verb => .bind (create_blames ..) fun o m' _ => ?_
  constructor
  rintro hopen w rfl
  exact ⟨.ok (), hopen⟩

/-- A condition that is asked of no model is kept. -/
theorem forM_blames {α : Type} {f : α → Build PUnit} {l : List α}
    (hf : ∀ a m', Blames m' (f a)) : Blames m (l.forM f) :=
  .forM (P := fun _ _ => True) (fun a _ m' _ => hf a m')
    (List.pairwise_of_forall fun _ _ _ _ _ _ => trivial) fun _ _ => trivial

theorem insertPath_blames (document : Document) (entry : Document × Document) :
    Blames m (insertPath document entry) :=
  .skip (.lift (Document.overDocument_followOrBlame _ _)) fun _ => .skip (.require _) fun _ =>
    forM_blames fun _ _ => insertKey_blames ..

/-- **All operations of a document are lowered over the document only.** -/
theorem insertAll_blames (document : Document) : Blames m (insertAll document) :=
  .skip (.field _ _) fun _ => .skip (.require _) fun _ =>
    forM_blames fun _ _ => insertPath_blames ..

end Operation

end TypedApi
