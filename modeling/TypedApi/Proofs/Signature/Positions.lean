import TypedApi.Proofs.Document.Legible
import TypedApi.Proofs.Signature.HeaderChains
import TypedApi.Proofs.Signature.Parameters
import TypedApi.Proofs.Signature.Wrapped
/-!
References and the places that they are used in.

A header refers to a header and a parameter to a parameter, and the items that
are made for headers have a mark. Whether a reference is in its place is asked
of its path only, and only after the table of registered paths, which has the
paths of all kinds of shared items. So what is answered is this: an item with
the mark, or one that the model had before under a path that the reference
leads to.

While a response is lowered, paths are registered that later headers of the
same response may refer to. `Accounts` is kept all along: a path that is
registered afterwards leads to an item with the mark, or goes back to a path of
the model before.
-/

set_option autoImplicit false

namespace TypedApi

open Build

variable {m m' m'' : Model} {r : Ref} {P : String → Prop}

/-! ## Marks -/

/-- A reference leads to an item with the mark of a header. -/
def Model.Marks (m : Model) (r : Ref) : Prop :=
  ∃ (i : Nat) (item : Item), m.indexOf r = .ok i ∧ m.definitions[i]? = some item ∧
    item.implHeader = true

/-- A mark stays where neither items nor marks are taken away, and no path is led elsewhere. -/
theorem Model.Marks.mono (h : m.Marks r) (htouches : m.Touches P m')
    (hpaths : m.namedReferences <+: m'.namedReferences) : m'.Marks r := by
  obtain ⟨i, item, hindex, hitem, hmark⟩ := h
  obtain ⟨item', hitem', hmark'⟩ := htouches.marked hitem hmark
  exact ⟨i, item', indexOf_of_prefix htouches.size_le hpaths hindex, hitem', hmark'⟩

/-- An item that is marked has the mark. -/
theorem Model.marks_of_modifyItem {index : Int}
    (h : Leaves (modifyItem (.back index) fun item => { item with implHeader := true }) m () m') :
    m'.Marks (.back index) := by
  obtain ⟨w, w', rfl, h, rfl⟩ := h
  rw [modifyItem, exec_bind_model] at h
  obtain ⟨own, hown, h⟩ := of_exec_bind_steady (.lift _) h
  have hown := of_exec_lift_ok (hown w)
  rw [indexOf] at hown
  split at hown
  · cases hown
    have hrange := inRange_iff.mp ‹_›
    obtain ⟨i, rfl⟩ := Int.eq_ofNat_of_zero_le hrange.1
    have hi : i < w.model.definitions.length := Int.ofNat_lt.mp hrange.2
    have hposition : w.model.position? i = some i := by
      simp [position?, size, hi, Int.not_lt.mpr hrange.1]
    rw [hposition] at h
    cases h
    refine ⟨i, { w.model.definitions.get ⟨i, hi⟩ with implHeader := true },
      indexOf_back (by simpa [size] using hi), ?_, rfl⟩
    simp [hi]
  · cases hown

/-- A reference to a header that has just been added leads to a mark. -/
theorem Model.marks_of_addItem {item : Item} {w w' : Workbench} (hitem : item.implHeader = true)
    (h : exec (addItem item) w = (.ok r, w')) : w'.model.Marks r := by
  obtain ⟨name, rfl, hmodel⟩ := of_exec_addItem h
  have hsize : w'.model.size = w.model.size + 1 := by simp [hmodel, Model.size, Model.withItem]
  refine ⟨w.model.size, { item with generatedName := name }, Model.indexOf_back (by omega), ?_,
    hitem⟩
  simp [hmodel, Model.withItem, Model.size]

/-- Between two moments no path is registered and no mark is lost. -/
structure Model.Rests (m m' : Model) : Prop where
  paths : m.SamePaths m'
  marks : ∀ r, m.Marks r → m'.Marks r

instance : IsPreorder Model Model.Rests where
  refl _ := ⟨rfl, fun _ => id⟩
  trans _ _ _ h h' := ⟨h.paths.trans h'.paths, fun r hr => h'.marks r (h.marks r hr)⟩

/-- Where no path may be touched, none is registered. -/
theorem Model.Touches.samePaths (h : m.Touches (fun _ => False) m') : m.SamePaths m' := by
  induction h with
  | refl => rfl
  | tail _ htouch ih =>
    cases htouch with
    | add item path hpath =>
      cases path with
      | none => exact ih
      | some p => exact (hpath p rfl).elim
    | change i f _ => exact ih
    | register path index hpath => exact hpath.elim

/-- Paths rest then, and so do marks. -/
theorem Model.Touches.rests (h : m.Touches (fun _ => False) m') : m.Rests m' :=
  ⟨h.samePaths, fun _ hr => hr.mono h (h.samePaths ▸ List.prefix_rfl)⟩

namespace Operation

open Document

variable {document header response entry param : Document} {specName : Document}
  {path name itemName : String} {w w' : Workbench} {index : Int}

/-! ## Accounting for paths -/

/-- A path leads, along the references of a document, to one that a model has an index for. -/
def Recalls (document : Document) (m : Model) (path : String) (index : Int) : Prop :=
  ∃ back, Relation.ReflTransGen document.Refers path back ∧
    m.namedReferences.get? back = some index

/-- What a path leads to at the end of a time: an item with the mark, or one that the path leads
back to at the beginning. -/
def Accounted (document : Document) (m m' : Model) (path : String) (r : Ref) : Prop :=
  m'.Marks r ∨ ∃ index, Recalls document m path index ∧ r = .back index

/-- Every path that is registered at the end of a time is accounted for, and no mark is lost. -/
structure Accounts (document : Document) (m m' : Model) : Prop where
  marks : ∀ r, m.Marks r → m'.Marks r
  paths : ∀ path index, m'.namedReferences.get? path = some index →
    Accounted document m m' path (.back index)

/-- What is recalled in the middle of a time is accounted for at the end. -/
theorem Accounts.recalled (h : Accounts document m m') (hmarks : ∀ r, m'.Marks r → m''.Marks r)
    (hrecalls : Recalls document m' path index) : Accounted document m m'' path (.back index) := by
  obtain ⟨back, hpath, hback⟩ := hrecalls
  rcases h.paths back index hback with hmark | ⟨own, ⟨first, hfirst, hget⟩, heq⟩
  · exact .inl (hmarks _ hmark)
  · exact .inr ⟨own, ⟨first, hpath.trans hfirst, hget⟩, heq⟩

instance : IsPreorder Model (Accounts document) where
  refl _ := ⟨fun _ => id, fun path index hget => .inr ⟨index, ⟨path, .refl, hget⟩, rfl⟩⟩
  trans _ _ _ h h' := by
    refine ⟨fun r hr => h'.marks r (h.marks r hr), fun path index hget => ?_⟩
    rcases h'.paths path index hget with hmark | ⟨own, hrecalls, heq⟩
    · exact .inl hmark
    · exact heq ▸ h.recalled h'.marks hrecalls

theorem Accounts.of_rests (h : m.Rests m') : Accounts document m m' :=
  ⟨h.marks, fun path index hget => .inr ⟨index, ⟨path, .refl, h.paths ▸ hget⟩, rfl⟩⟩

/-- One more path for an item that is accounted for, and whose own path the new one refers to. -/
theorem Accounts.withPath (h : Accounts document m m') (hmarks : ∀ r, m'.Marks r → m''.Marks r)
    (hpaths : ∀ p own, p ≠ path → m''.namedReferences.get? p = some own →
      m'.namedReferences.get? p = some own)
    (hpath : m''.namedReferences.get? path = some index)
    (hnew : Accounted document m m'' path (.back index)) : Accounts document m m'' := by
  refine ⟨fun r hr => hmarks r (h.marks r hr), fun p own hget => ?_⟩
  by_cases heq : p = path
  · subst heq
    obtain rfl : index = own := Option.some.inj (hpath.symm.trans hget)
    exact hnew
  · rcases h.paths p own (hpaths p own heq hget) with hmark | hrecalls
    · exact .inl (hmarks _ hmark)
    · exact .inr hrecalls

/-! ## Headers -/

/-- A header that is no reference is marked. -/
theorem marks_of_createHeader {own : Option String}
    (h : exec (createHeader specName own header) w = (.ok r, w')) : w'.model.Marks r := by
  have hplaced := ((createHeader_along (S := .anything) specName own header).runs
    (Call.sound_anything _) w rfl).2 r (congrArg Prod.fst h)
  obtain ⟨index, rfl⟩ := hplaced.back
  obtain ⟨m, _, hmark⟩ := createHeader_ends ⟨w, w', rfl, h, rfl⟩
  exact Model.marks_of_modifyItem hmark

/-- A reference leads on to what its target leads to. -/
theorem Recalls.head {next : String} (hpath : document.Refers path next)
    (h : Recalls document m next index) : Recalls document m path index := by
  obtain ⟨back, hnext, hget⟩ := h
  exact ⟨back, .head hpath hnext, hget⟩

/-- So is one that everyone may use. -/
theorem marks_of_createShared (h : exec (createShared specName path header) w = (.ok r, w')) :
    w'.model.Marks r := by
  rw [createShared] at h
  obtain ⟨s, u, hcreate, h⟩ := of_exec_bind_ok h
  obtain ⟨_, u', hmark, h⟩ := of_exec_bind_ok h
  cases h
  have hrests := ((Keeps.modifyItem r keepsMark_pubTypedef).of_exec hmark).rests
  exact hrests.marks r (marks_of_createHeader hcreate)

/-- One more shared header is accounted for by its mark. -/
theorem accounts_of_createShared (h : exec (createShared specName path header) w = (.ok r, w')) :
    Accounts document w.model w'.model := by
  have hmark := marks_of_createShared h
  have htouches : w.model.Touches (· = path) w'.model :=
    (createShared_touches (P := (· = path)) specName header rfl).of_exec h
  have hpaths := (kept_of_exec (fun _ => createShared_along ..) h).paths
  have hplaced := ((createShared_along (S := .anything) specName path header).runs
    (Call.sound_anything _) w rfl).2 r (congrArg Prod.fst h)
  obtain ⟨index, rfl⟩ := hplaced.back
  obtain ⟨_, hindex, hget⟩ := registeredFor_of_createShared ⟨w, w', rfl, h, rfl⟩
  cases hindex
  refine (refl_of (Accounts document) w.model).withPath (fun _ hr => hr.mono htouches hpaths)
    (fun p own hne hown => ?_) hget (.inl hmark)
  -- any other path was there before, and has kept its index
  have hmem := htouches.mem_paths (List.mem_map_of_mem (Table.mem_of_get?_eq_some hown))
  cases hold : w.model.namedReferences.get? p with
  | none => exact (Table.get?_eq_none_iff.mp hold (hmem.resolve_right hne)).elim
  | some old => rw [← Table.get?_of_prefix hpaths hold, hown]

/-- **The headers along a walk are accounted for**, and so is where its first path leads. The
induction is on the links. -/
theorem accounts_of_headerAlong {links : List Link} {seen : List String} {value : Document}
    (hwalk : Walk document seen value (.ok links))
    (hvalue : value.find? "$ref" = some (.text path))
    (h : exec (headerAlong links) w = (.ok r, w')) :
    Accounts document w.model w'.model ∧ Accounted document w.model w'.model path r := by
  induction links generalizing seen value path r w' with
  | nil =>
    rw [hwalk.find?_of_nil] at hvalue
    cases hvalue
  | cons link rest ih =>
    have hplaced := ((headerAlong_along (S := .anything) (link :: rest)).runs
      (Call.sound_anything _) w rfl).2 r (congrArg Prod.fst h)
    obtain ⟨target, _, heq, hresolve, hrest⟩ := hwalk.exists_link hvalue
    cases heq
    rw [headerAlong, exec_bind_model] at h
    cases hget : w.model.namedReferences.get? path with
    | some index =>
      rw [hget] at h
      cases h
      exact ⟨refl_of _ _, .inr ⟨index, ⟨path, .refl, hget⟩, rfl⟩⟩
    | none =>
      rw [hget] at h
      dsimp only at h
      split at h
      · cases h
      · cases rest with
        | nil => exact ⟨accounts_of_createShared h, .inl (marks_of_createShared h)⟩
        | cons next rest =>
          rw [if_neg (by simp)] at h
          obtain ⟨s, u, hs, h⟩ := of_exec_bind_ok h
          obtain ⟨_, u', hregister, h⟩ := of_exec_bind_ok h
          cases h
          obtain ⟨index, rfl⟩ := hplaced.back
          obtain ⟨haccounts, haccounted⟩ := ih hrest hrest.exists_reference hs
          obtain ⟨_, hindex, hmodel⟩ := Leaves.of_registerPath ⟨u, w', rfl, hregister, rfl⟩
          cases hindex
          have htouches : u.model.Touches (fun _ => True) w'.model :=
            (Keeps.registerPath trivial).of_exec hregister
          have hpaths :=
            (kept_of_exec (fun _ => Along.registerPath fun _ _ => trivial) hregister).paths
          have hmarks : ∀ r, u.model.Marks r → w'.model.Marks r := fun _ hr =>
            hr.mono htouches hpaths
          have hnew : Accounted document w.model w'.model path (.back index) := by
            rcases haccounted with hmark | ⟨own, hrecalls, hsame⟩
            · exact .inl (hmarks _ hmark)
            · exact .inr ⟨own, hrecalls.head ⟨target, hresolve, hrest.exists_reference⟩, hsame⟩
          refine ⟨haccounts.withPath hmarks (fun p own hne hown => ?_) ?_ hnew, hnew⟩
          · rw [hmodel, Model.withPath, Table.get?_insert_of_ne _ _ hne] at hown
            exact hown
          · rw [hmodel, Model.withPath, Table.get?_insert_self]

theorem accounts_of_referredHeader (hheader : header.find? "$ref" = some (.text path))
    (h : exec (referredHeader document (.text path) header) w = (.ok r, w')) :
    Accounts document w.model w'.model ∧ Accounted document w.model w'.model path r := by
  rw [referredHeader, exec_bind_model] at h
  cases hget : w.model.namedReferences.get? path with
  | some index =>
    rw [hget] at h
    cases h
    exact ⟨refl_of _ _, .inr ⟨index, ⟨path, .refl, hget⟩, rfl⟩⟩
  | none =>
    rw [hget] at h
    dsimp only at h
    split at h
    · cases h
    · obtain ⟨links, hlinks, h⟩ := of_exec_bind_steady (.lift _) h
      have hwalk := walk_chain document header
      rw [of_blameReference_ok (of_exec_lift_ok (hlinks w))] at hwalk
      exact accounts_of_headerAlong hwalk hheader h

/-- What a header has for an item: one with the mark, or one that the model had before under a path
that its reference leads to. -/
def HeaderItem (document : Document) (m m' : Model) (header : Document) (r : Ref) : Prop :=
  m'.Marks r ∨ ∃ path index, header.find? "$ref" = some (.text path) ∧
    Recalls document m path index ∧ r = .back index

/-- **Converting a header accounts for its item** and for the paths that it registers. -/
theorem accounts_of_convertHeader
    (h : exec (convertHeader document specName header) w = (.ok r, w')) :
    Accounts document w.model w'.model ∧ HeaderItem document w.model w'.model header r := by
  rw [convertHeader] at h
  obtain ⟨reference, hreference, h⟩ := of_exec_bind_steady (.field _ _) h
  split at h
  · have hrests := ((createHeader_touches specName header (by simp)).of_exec h).rests
    exact ⟨.of_rests hrests, .inl (marks_of_createHeader h)⟩
  · have hheader := find?_of_get? (of_exec_require_ok (hreference w))
      (by simpa using ‹¬reference.isNull = true›)
    cases reference with
    | text path =>
      obtain ⟨haccounts, hmark | ⟨index, hrest⟩⟩ := accounts_of_referredHeader hheader h
      · exact ⟨haccounts, .inl hmark⟩
      · exact ⟨haccounts, .inr ⟨path, index, hheader, hrest⟩⟩
    | _ => cases h

/-- What a header has for an item in the middle of a time, it has at the end. -/
theorem HeaderItem.between {m₁ m₂ : Model} (h : HeaderItem document m₁ m₂ header r)
    (hbefore : Accounts document m m₁) (hafter : Accounts document m₂ m')
    (hmiddle : Accounts document m₁ m₂) : HeaderItem document m m' header r := by
  rcases h with hmark | ⟨path, index, hheader, hrecalls, rfl⟩
  · exact .inl (hafter.marks r hmark)
  · have hmarks : ∀ r, m₁.Marks r → m'.Marks r := fun r hr => hafter.marks r (hmiddle.marks r hr)
    exact (hbefore.recalled hmarks hrecalls).imp_right fun ⟨own, hrest⟩ =>
      ⟨path, own, hheader, hrest⟩

/-! ## Responses -/

/-- A variant that is wrapped in headers has the item of a header for each of them. -/
def HeaderMembers (document : Document) (m m' : Model) (headers : List (String × Document))
    (v : Variant) : Prop :=
  headers = [] ∨ ∃ members payload,
    List.Forall₂ (fun header member => member.1 = header.1 ∧
      HeaderItem document m m' header.2 member.2.definition) headers members ∧
    m'.Shows v.definition
      (.object (members ++ [("body", { definition := payload, inlineOption := false })]))

variable {headers : List (String × Document)} {several : Bool} {docs : Document}
  {media : Document × Document} {v : Variant} {vs : List Variant}

theorem accounts_of_headerMember {p : String × Document} {member : String × Member}
    (h : exec (headerMember document name p) w = (.ok member, w')) :
    Accounts document w.model w'.model ∧ member.1 = p.1 ∧
      HeaderItem document w.model w'.model p.2 member.2.definition := by
  obtain ⟨headerName, header⟩ := p
  rw [headerMember] at h
  split at h
  · cases h
  obtain ⟨_, _, h⟩ := of_exec_bind_steady (.lift _) h
  obtain ⟨definition, u, hdefinition, h⟩ := of_exec_bind_ok h
  obtain ⟨_, _, h⟩ := of_exec_bind_steady (.field _ _) h
  cases h
  obtain ⟨haccounts, hitem⟩ := accounts_of_convertHeader hdefinition
  exact ⟨haccounts, rfl, hitem⟩

/-- The headers of a response are converted one after the other. -/
theorem accounts_of_members {members : List (String × Member)}
    (h : exec (headers.mapM (headerMember document name)) w = (.ok members, w')) :
    Accounts document w.model w'.model ∧
      List.Forall₂ (fun header member => member.1 = header.1 ∧
        HeaderItem document w.model w'.model header.2 member.2.definition) headers members := by
  obtain ⟨haccounts, hmembers⟩ := forall₂_between (R := Accounts document)
    (fun _ _ _ _ hrun => (accounts_of_headerMember hrun).1) h
  refine ⟨haccounts, hmembers.imp fun header member ⟨_, _, hbefore, hrun, hafter⟩ => ?_⟩
  obtain ⟨hmiddle, hname, hitem⟩ := accounts_of_headerMember hrun
  exact ⟨hname, hitem.between hbefore hafter hmiddle⟩

theorem accounts_of_responseVariant
    (h : exec (responseVariant document itemName several headers docs media) w = (.ok v, w')) :
    Accounts document w.model w'.model ∧ HeaderMembers document w.model w'.model headers v := by
  obtain ⟨payload, u, hpayload, hrest⟩ := exists_payload h
  have hbefore : Accounts document w.model u.model :=
    .of_rests ((addPayload_touches ..).of_exec hpayload).rests
  rcases hrest with ⟨hempty, _, rfl⟩ | ⟨_, hwrap⟩
  · exact ⟨hbefore, .inl hempty⟩
  · obtain ⟨members, u', hmembers, hgrows, hshows⟩ := exists_members hwrap
    obtain ⟨hmiddle, hitems⟩ := accounts_of_members hmembers
    have hafter : Accounts document u'.model w'.model := .of_rests hgrows.touches.rests
    refine ⟨trans_of (Accounts document) hbefore (trans_of (Accounts document) hmiddle hafter),
      .inr ⟨members, payload, hitems.imp fun _ _ ⟨hname, hitem⟩ =>
        ⟨hname, hitem.between hbefore hafter hmiddle⟩, hshows⟩⟩

/-- What is between two moments of a response that is lowered. -/
structure Between (document : Document) (m m' : Model) : Prop where
  accounts : Accounts document m m'
  steps : Steps .anything m m'

instance : IsPreorder Model (Between document) where
  refl _ := ⟨refl_of _ _, .refl⟩
  trans _ _ _ h h' := ⟨trans_of (Accounts document) h.accounts h'.accounts, h.steps.trans h'.steps⟩

/-- **The members of a response that is wrapped in headers are accounted for.** -/
theorem headerMembers_of_createVariants
    (h : exec (createVariants document itemName response) w = (.ok vs, w')) :
    ∃ declared, declaredHeaders? response = some declared ∧
      ∀ v ∈ vs, HeaderMembers document w.model w'.model (own declared) v := by
  obtain ⟨declared, entries, docs, hdeclared, _, _, h⟩ := exists_entries h
  have hbetween : ∀ {entry u u' v},
      exec (responseVariant document itemName (1 < entries.length) (own declared) docs entry) u =
        (.ok v, u') → Between document u.model u'.model := fun hrun =>
    ⟨(accounts_of_responseVariant hrun).1,
      (Keeps.of_along fun _ => responseVariant_along ..).of_exec hrun⟩
  have hvariants := (forall₂_between (R := Between document) (fun _ _ _ _ => hbetween) h).2
  refine ⟨declared, hdeclared, fun v hv => ?_⟩
  obtain ⟨_, _, u, u', hbefore, hrun, hafter⟩ := exists_of_mem_forall₂_right hvariants hv
  rcases (accounts_of_responseVariant hrun).2 with hempty | ⟨members, payload, hmembers, hshows⟩
  · exact .inl hempty
  · refine .inr ⟨members, payload, hmembers.imp fun _ _ ⟨hname, hitem⟩ => ?_,
      hshows.steps hafter.steps⟩
    exact ⟨hname, hitem.between hbefore.accounts hafter.accounts (hbetween hrun).accounts⟩

/-! ## Parameters -/

/-- A header parameter that is no reference is marked. -/
theorem marks_of_insertParameter {registered : Option String}
    (hlocation : locationOf param = .text "header")
    (h : exec (insertParameter registered param) w = (.ok r, w')) : w'.model.Marks r := by
  have hplaced := ((insertParameter_along (S := .anything) registered param).runs
    (Call.sound_anything _) w rfl).2 r (congrArg Prod.fst h)
  obtain ⟨index, rfl⟩ := hplaced.back
  rw [insertParameter] at h
  obtain ⟨_, _, h⟩ := of_exec_bind_steady (.require _) h
  obtain ⟨location, hparse, h⟩ := of_exec_bind_steady (.lift _) h
  obtain rfl : location = .header := by
    have hparse := of_exec_lift_ok (hparse w)
    rw [hlocation] at hparse
    cases hparse
    rfl
  obtain ⟨⟨contentType, schema⟩, _, h⟩ := of_exec_bind_steady (steady_parameterSchema _ _) h
  obtain ⟨reference, _, h⟩ := of_exec_bind_steady (.field _ _) h
  revert h
  extract_lets description jp
  -- whatever the item is, it is registered if a path is given, and then marked
  have hjp : ∀ s u, exec (jp s) u = (.ok (.back index), w') → w'.model.Marks (.back index) := by
    intro s u h
    have hmark : ∀ u, exec (do
        if Location.header = .header then modifyItem s fun item => { item with implHeader := true }
        return s) u = (.ok (.back index), w') → w'.model.Marks (.back index) := by
      intro u h
      obtain ⟨_, u', hmark, h⟩ := of_exec_bind_ok h
      cases h
      exact Model.marks_of_modifyItem ⟨u, w', rfl, hmark, rfl⟩
    cases registered with
    | none => exact hmark u h
    | some p =>
      obtain ⟨_, u', _, h⟩ := of_exec_bind_ok h
      exact hmark u' h
  intro h
  split at h
  · obtain ⟨_, _, h⟩ := of_exec_bind_steady (steady_namesFor _) h
    obtain ⟨s, u, _, h⟩ := of_exec_bind_ok h
    obtain ⟨_, u', _, h⟩ := of_exec_bind_ok h
    exact hjp s u' h
  · obtain ⟨target, u, _, h⟩ := of_exec_bind_ok h
    split at h
    · exact hjp target u h
    · obtain ⟨_, _, h⟩ := of_exec_bind_steady (steady_namesFor _) h
      obtain ⟨_, _, h⟩ := of_exec_bind_steady (.textOrNull _) h
      obtain ⟨_, _, h⟩ := of_exec_bind_steady (.optionalText _) h
      obtain ⟨s, u', _, h⟩ := of_exec_bind_ok h
      exact hjp s u' h

/-- A reference to a parameter is followed, and has the item under its path. -/
theorem of_exec_convertParameter {reference : Document} {p : Document × Ref}
    (hentry : entry.find? "$ref" = some reference)
    (h : exec (convertParameter document entry) w = (.ok p, w')) :
    ∃ path index, reference = .text path ∧ w.model.namedReferences.get? path = some index ∧
      document.followOrBlame entry = .ok p.1 ∧ p.2 = .back index ∧ w' = w := by
  rw [convertParameter, hentry] at h
  obtain ⟨_, _, h⟩ := of_exec_bind_steady (.require _) h
  obtain ⟨param, hparam, h⟩ := of_exec_bind_steady (.lift _) h
  obtain ⟨r, u, hr, h⟩ := of_exec_bind_ok h
  obtain ⟨path, index, hpath, hget, hitem, hsame⟩ := of_exec_namedBy hr
  cases h
  exact ⟨path, index, hpath, hget, of_exec_lift_ok (hparam w), hitem, hsame⟩

/-- A path that is registered is answered as soon as the reference leads somewhere. -/
theorem exec_convertParameter_of_registered (hentry : entry.find? "$ref" = some (.text path))
    (hget : w.model.namedReferences.get? path = some index) :
    exec (convertParameter document entry) w =
      ((document.followOrBlame entry).map (·, .back index), w) := by
  obtain ⟨fields, rfl⟩ := exists_fields_of_find? hentry
  have hfields : exec (require (object fields).fields?) w = (.ok fields, w) := exec_require _ w
  rw [convertParameter, exec_bind_ok hfields, hentry]
  dsimp only
  cases document.followOrBlame (object fields) with
  | error e => rfl
  | ok param =>
    have hnamed : exec (namedBy (.text path)) w = (.ok (.back index), w) := by
      rw [namedBy, named, exec_bind_model, exec_lift, Model.named, hget]
    rw [exec_bind_ok (exec_lift (.ok param) w), exec_bind_ok hnamed]
    rfl

/-- Any other path is unknown, unless following the reference meets a malformed value. -/
theorem exec_convertParameter_of_free (hentry : entry.find? "$ref" = some (.text path))
    (hget : w.model.namedReferences.get? path = none) :
    ∃ e, exec (convertParameter document entry) w = (.error e, w) ∧
      (e.problem = .unknownReference path ∨ document.chain entry = .error .malformed) := by
  obtain ⟨fields, rfl⟩ := exists_fields_of_find? hentry
  have hfields : exec (require (object fields).fields?) w = (.ok fields, w) := exec_require _ w
  rw [convertParameter, exec_bind_ok hfields, hentry]
  dsimp only
  cases hfollow : document.followOrBlame (object fields) with
  | error e =>
    refine ⟨e, rfl, ?_⟩
    have hblamed := of_followOrBlame_error hfollow
    rwa [referenceText, hentry] at hblamed
  | ok param =>
    have hnamed : exec (namedBy (.text path)) w = (.error ⟨.unknownReference path, none⟩, w) := by
      rw [namedBy, named, exec_bind_model, exec_lift, Model.named, hget]
      rfl
    rw [exec_bind_ok (exec_lift (.ok param) w), exec_bind_error hnamed]
    exact ⟨_, rfl, .inl rfl⟩

/-- What a header parameter has for an item: one with the mark, the implicit header that the model
remembered, or one that the model had under the path of a reference that declares it. -/
def ParameterItem (document : Document) (m m' : Model) (entries : List Document)
    (p : String × Parameter) : Prop :=
  m'.Marks p.2.item ∨ m.acceptHeader = some p.2.item ∨
    ∃ entry ∈ entries, ∃ d path index, Declaration.Of document entry d ∧ d.key = (p.1, .header) ∧
      entry.find? "$ref" = some (.text path) ∧ m.namedReferences.get? path = some index ∧
      p.2.item = .back index

/-- A declaration of a header is marked, or has the item under the path of its reference. -/
theorem item_of_lower {d : Declaration} {p : Parameter} (hd : Declaration.Of document d.entry d)
    (hlocation : d.location = .header)
    (h : exec (Declaration.lower document d) w = (.ok p, w')) :
    w'.model.Marks p.item ∨ ∃ path index, d.entry.find? "$ref" = some (.text path) ∧
      w.model.namedReferences.get? path = some index ∧ p.item = .back index := by
  rw [Declaration.lower] at h
  obtain ⟨⟨param, item⟩, u, hconvert, h⟩ := of_exec_bind_ok h
  rw [exec_pure, Prod.mk.injEq, Except.ok.injEq] at h
  obtain ⟨rfl, rfl⟩ := h
  cases hreference : d.entry.find? "$ref" with
  | none =>
    rw [convertParameter, hreference] at hconvert
    obtain ⟨_, _, hconvert⟩ := of_exec_bind_steady (.require _) hconvert
    obtain ⟨r, u, hinsert, hconvert⟩ := of_exec_bind_ok hconvert
    cases hconvert
    have hparam : document.followOrBlame d.entry = .ok d.entry :=
      Declaration.followOrBlame_of_find?_eq_none hreference
    have hown : d.entry = d.param := Except.ok.inj (hparam.symm.trans hd.param_eq)
    refine .inl (marks_of_insertParameter ?_ hinsert)
    rw [hown, hd.location_eq, hlocation]
    rfl
  | some reference =>
    obtain ⟨path, index, rfl, hget, _, hitem, rfl⟩ := of_exec_convertParameter hreference hconvert
    exact .inr ⟨path, index, rfl, hget, hitem⟩

/-- A declared parameter registers no path and takes no mark away. -/
theorem rests_of_lower {d : Declaration} {answer : Except Failure Parameter}
    (h : exec (Declaration.lower document d) w = (answer, w')) : w.model.Rests w'.model := by
  have htouches : Keeps (Model.Touches fun _ => False) (Declaration.lower document d) := by
    refine .bind (.skip (.require _) fun _ => ?_) fun _ => .pure _
    split
    · exact (insertParameter_touches _ (by simp)).bind fun _ => .pure _
    · exact .skip (.lift _) fun _ => (Keeps.namedBy _).bind fun _ => .pure _
  exact (htouches.of_exec h).rests

/-- The implicit header is marked, or is the one that the model remembered; and the marks that were
there stay. -/
theorem marks_of_implicitHeaders {responses : Document} {declared accept : List Parameter}
    (h : exec (implicitHeaders document declared responses) w = (.ok accept, w')) :
    (∀ r, w.model.Marks r → w'.model.Marks r) ∧
      ∀ p ∈ accept, w'.model.Marks p.item ∨ w.model.acceptHeader = some p.item := by
  rcases implicitHeaders_cases h with ⟨rfl, rfl, _⟩ | ⟨p, rfl, haccept, _⟩
  · exact ⟨fun _ => id, by simp⟩
  obtain ⟨item, rfl, ⟨hitem, rfl⟩ | ⟨_, u, hadd, hmodel⟩⟩ := acceptParameter_cases haccept
  · exact ⟨fun _ => id, fun p hp => .inr (List.mem_singleton.mp hp ▸ hitem)⟩
  · -- remembering the item changes neither items nor paths
    have hsame : ∀ r, u.model.Marks r → w'.model.Marks r := fun r hr => by
      rw [hmodel]
      exact hr
    have hgrows : w.model.Grows u.model := (Keeps.addItem _).of_exec hadd
    refine ⟨fun r hr => hsame r (hgrows.touches.rests.marks r hr), ?_⟩
    exact fun p hp => .inl (List.mem_singleton.mp hp ▸ hsame _ (Model.marks_of_addItem rfl hadd))

/-- **The headers of an operation are accounted for.** -/
theorem parameterItems_of_create {pathDocument pathItem operation : Document} {verb : Verb}
    {o : Operation}
    (h : exec (create document pathDocument verb pathItem operation) w = (.ok o, w')) :
    ∃ pathEntries ownEntries, Declaration.entriesOf? pathItem = some pathEntries ∧
      Declaration.entriesOf? operation = some ownEntries ∧
      ∀ p ∈ o.headers, ParameterItem document w.model w'.model (pathEntries ++ ownEntries) p := by
  obtain ⟨parts⟩ := exists_parts h
  obtain ⟨all, chosen, hsourced⟩ := Declaration.exists_sourced parts.declared_exec
  obtain ⟨pathEntries, ownEntries, hpath, hown, hall⟩ := hsourced.entries
  obtain ⟨hmarks, haccept⟩ := marks_of_implicitHeaders parts.accept_exec
  have hrest : ∀ r, parts.afterAccept.model.Marks r → w'.model.Marks r := fun r hr =>
    hr.mono parts.rest_touches parts.steps_accept.kept.paths
  refine ⟨pathEntries, ownEntries, hpath, hown, fun p hp => ?_⟩
  rw [parts.headers_eq, headerTable_eq (distinct_of_parametersOf parts.declared_exec),
    ← List.map_append] at hp
  obtain ⟨q, hq, rfl⟩ := List.mem_map.mp hp
  rcases List.mem_append.mp hq with hq | hq
  · rcases haccept q hq with hmark | hitem
    · exact .inl (hrest _ hmark)
    · exact .inr (.inl (parts.declared_touches.acceptHeader_eq ▸ hitem))
  · obtain ⟨hq, hlocation⟩ := List.mem_filter.mp hq
    obtain ⟨_, hlowered⟩ := forall₂_between (R := Model.Rests)
      (fun _ _ _ _ hrun => rests_of_lower hrun) hsourced.lowered
    obtain ⟨d, hd, u, u', hbefore, hrun, hafter⟩ := exists_of_mem_forall₂_right hlowered hq
    have hmade := Declaration.of_lower ⟨u, u', hrun⟩
    have hof := hsourced.merges.of_mem hall hd
    have hheader : d.location = .header := by
      rw [hmade] at hlocation
      exact of_decide_eq_true hlocation
    rcases item_of_lower hof hheader hrun with hmark | ⟨path, index, hentry, hget, hitem⟩
    · exact .inl (hrest _ (hmarks _ (hafter.marks _ hmark)))
    · obtain ⟨before, after, rfl, _⟩ := hsourced.merges.last d hd
      obtain ⟨entry, hmem, hof'⟩ :=
        exists_of_mem_forall₂_right hall (List.mem_append_right _ List.mem_cons_self)
      rw [hof'.entry_eq] at hentry
      refine .inr (.inr ⟨entry, hmem, d, path, index, hof', ?_, hentry, hbefore.paths ▸ hget, hitem⟩)
      rw [Declaration.key, hheader, hmade]
      rfl

/-! ## Positions -/

/-- **What a reference is checked for.** A reference in a header that has not the form of one to a
shared header, and a reference in a parameter whatever it is, is answered by the table: with the item
under its path if there is one, and as unknown if there is none. So the items that a response has
for its headers, and an operation for its own, have the mark of a header, but for those that the
model had under the path of a reference before. -/
theorem positions_of_references (document : Document) (w : Workbench) :
    (∀ specName header path, header.find? "$ref" = some (.text path) → headerName? path = none →
      exec (convertHeader document specName header) w =
        match w.model.namedReferences.get? path with
        | some index => (.ok (.back index), w)
        | none => (.error ⟨.unknownReference path, none⟩, w)) ∧
    (∀ entry path, entry.find? "$ref" = some (.text path) →
      match w.model.namedReferences.get? path with
      | some index => exec (convertParameter document entry) w =
          ((document.followOrBlame entry).map (·, .back index), w)
      | none => ∃ e, exec (convertParameter document entry) w = (.error e, w) ∧
          (e.problem = .unknownReference path ∨ document.chain entry = .error .malformed)) ∧
    (∀ itemName response vs w',
      exec (createVariants document itemName response) w = (.ok vs, w') →
      ∃ declared, declaredHeaders? response = some declared ∧
        ∀ v ∈ vs, HeaderMembers document w.model w'.model (own declared) v) ∧
    (∀ path verb pathItem operation o w',
      exec (create document path verb pathItem operation) w = (.ok o, w') →
      ∃ pathEntries ownEntries, Declaration.entriesOf? pathItem = some pathEntries ∧
        Declaration.entriesOf? operation = some ownEntries ∧
        ∀ p ∈ o.headers,
          ParameterItem document w.model w'.model (pathEntries ++ ownEntries) p) := by
  refine ⟨fun specName header path hheader hname => ?_, fun entry path hentry => ?_,
    fun _ _ _ _ => headerMembers_of_createVariants, fun _ _ _ _ _ _ => parameterItems_of_create⟩
  · cases hget : w.model.namedReferences.get? path with
    | some index => exact exec_convertHeader_of_registered hheader hget
    | none => exact exec_convertHeader_of_misplaced hheader hget hname
  · cases hget : w.model.namedReferences.get? path with
    | some index => exact exec_convertParameter_of_registered hentry hget
    | none => exact exec_convertParameter_of_free hentry hget

/-! ## References in their places and elsewhere -/

/-- A reference to a shared schema. -/
def schemaReference : Document :=
  .object [(.text "$ref", .text "#/components/schemas/A")]

/-- A document with a shared schema and a shared header parameter. -/
def tracedDocument : Document :=
  .object [(.text "components", .object [
    (.text "schemas", .object [(.text "A", .object [(.text "type", .text "string")])]),
    (.text "parameters", .object [(.text "Trace", textParameter "X-Trace" "header" [])])])]

/-- A workbench on which the shared parameter has been lowered. -/
def tracedWorkbench : Workbench :=
  (exec (insertComponentParameter "#/components/parameters/Trace"
    (textParameter "X-Trace" "header" [])) {}).2

/-- An operation with the shared parameter and a header of its own. -/
def tracedOperation : Document :=
  .object [(.text "parameters", .array
    [.object [(.text "$ref", .text "#/components/parameters/Trace")],
      textParameter "X-Page" "header" []])]

/-- Before the schema is lowered, a reference to it is unknown in both places; references that are
in their places are lowered. -/
theorem tracedDocument_positions :
    exec (convertHeader tracedDocument (.text "X-A") schemaReference) {} =
      (.error ⟨.unknownReference "#/components/schemas/A", none⟩, {}) ∧
    (∃ e, exec (convertParameter tracedDocument schemaReference) {} = (.error e, {}) ∧
      e.problem = .unknownReference "#/components/schemas/A") ∧
    (∃ vs w', exec (createVariants listingDocument "Listing" listing) {} = (.ok vs, w') ∧
      ∃ declared, declaredHeaders? listing = some declared ∧
        ∀ v ∈ vs, HeaderMembers listingDocument {} w'.model (own declared) v) ∧
    ∃ o w', exec (create tracedDocument (.text "/a") .get (.object []) tracedOperation)
        tracedWorkbench = (.ok o, w') ∧
      o.headers.map Prod.fst = ["X-Trace", "X-Page"] ∧
      ∃ pathEntries ownEntries, Declaration.entriesOf? (.object []) = some pathEntries ∧
        Declaration.entriesOf? tracedOperation = some ownEntries ∧
        ∀ p ∈ o.headers, ParameterItem tracedDocument tracedWorkbench.model w'.model
          (pathEntries ++ ownEntries) p := by
  obtain ⟨hheader, hparameter, _, _⟩ := positions_of_references tracedDocument {}
  obtain ⟨_, _, hresponse, _⟩ := positions_of_references listingDocument {}
  obtain ⟨_, _, _, hoperation⟩ := positions_of_references tracedDocument tracedWorkbench
  refine ⟨hheader _ _ _ rfl (by decide +kernel), ?_, ?_, ?_⟩
  · obtain ⟨e, hexec, hunknown | hmalformed⟩ := hparameter schemaReference _ rfl
    · exact ⟨e, hexec, hunknown⟩
    · have hchain : (tracedDocument.chain schemaReference).toOption.isSome = true := by
        decide +kernel
      rw [hmalformed] at hchain
      cases hchain
  · have hvariants : (exec (createVariants listingDocument "Listing" listing)
        {}).1.toOption.map List.length = some 2 := by decide +kernel
    rcases hrun : exec (createVariants listingDocument "Listing" listing) {} with ⟨result, w'⟩
    rw [hrun] at hvariants
    obtain ⟨vs, rfl, _⟩ := exists_of_toOption_map hvariants
    exact ⟨vs, w', rfl, hresponse _ _ _ _ hrun⟩
  · have hheaders : (exec (create tracedDocument (.text "/a") .get (.object []) tracedOperation)
        tracedWorkbench).1.toOption.map (fun o => o.headers.map Prod.fst) =
          some ["X-Trace", "X-Page"] := by decide +kernel
    rcases hrun : exec (create tracedDocument (.text "/a") .get (.object []) tracedOperation)
      tracedWorkbench with ⟨result, w'⟩
    rw [hrun] at hheaders
    obtain ⟨o, rfl, hnames⟩ := exists_of_toOption_map hheaders
    exact ⟨o, w', rfl, hnames, hoperation _ _ _ _ _ _ hrun⟩

/-- A response with a header that refers to the schema. -/
def misplacedResponse : Document :=
  .object [(.text "headers", .object [(.text "X-A", schemaReference)])]

/-- The members of the objects that some variants refer to, with their items. -/
def memberItems (m : Model) (vs : List Variant) : List (List (String × Ref)) :=
  vs.map fun v =>
    match (m.resolve v.definition).toOption.map Item.shape with
    | some (.object members) => members.map fun p => (p.1, p.2.definition)
    | _ => []

/-- Once the schema is lowered, a reference to it is answered in both places, and a response with
such a header has a member whose item has no mark. -/
theorem misplaced_answered :
    ∃ w, (exec (addScalar "A" "A" (some "#/components/schemas/A") .string) {}).2 = w ∧
      headerName? "#/components/schemas/A" = none ∧
      exec (convertHeader tracedDocument (.text "X-A") schemaReference) w = (.ok (.back 0), w) ∧
      exec (convertParameter tracedDocument schemaReference) w =
        (.ok (.object [(.text "type", .text "string")], .back 0), w) ∧
      ∃ vs w', exec (createVariants tracedDocument "A" misplacedResponse) w = (.ok vs, w') ∧
        memberItems w'.model vs = [[("X-A", .back 0), ("body", .back 1)]] ∧
        ¬w'.model.Marks (.back 0) := by
  have hget : (exec (addScalar "A" "A" (some "#/components/schemas/A") .string)
      {}).2.model.namedReferences.get? "#/components/schemas/A" = some 0 := by decide +kernel
  refine ⟨_, rfl, by decide +kernel, exec_convertHeader_of_registered rfl hget, ?_, ?_⟩
  · exact exec_convertParameter_of_registered rfl hget
  have hvalues : (exec (createVariants tracedDocument "A" misplacedResponse)
      (exec (addScalar "A" "A" (some "#/components/schemas/A") .string) {}).2).1.toOption.map
        (fun vs =>
          let m := (exec (createVariants tracedDocument "A" misplacedResponse)
            (exec (addScalar "A" "A" (some "#/components/schemas/A") .string) {}).2).2.model
          (memberItems m vs, (m.definitions.map Item.implHeader)[0]?)) =
      some ([[("X-A", .back 0), ("body", .back 1)]], some false) := by
    decide +kernel
  rcases hrun : exec (createVariants tracedDocument "A" misplacedResponse)
    (exec (addScalar "A" "A" (some "#/components/schemas/A") .string) {}).2 with ⟨result, w'⟩
  rw [hrun] at hvalues
  obtain ⟨vs, rfl, hvalues⟩ := exists_of_toOption_map hvalues
  obtain ⟨hmembers, hunmarked⟩ := Prod.mk.inj hvalues
  refine ⟨vs, w', rfl, hmembers, ?_⟩
  rintro ⟨i, item, hindex, hitem, hmark⟩
  rw [Model.indexOf] at hindex
  split at hindex
  · obtain rfl : 0 = i := Int.ofNat.inj (Except.ok.inj hindex)
    rw [List.getElem?_map, hitem, Option.map_some, hmark] at hunmarked
    cases hunmarked
  · cases hindex

end Operation

end TypedApi
