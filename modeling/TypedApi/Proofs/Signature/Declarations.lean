import TypedApi.Proofs.Schema.Denotation
import TypedApi.Proofs.Signature.Parts
/-!
The parameters that an operation declares.

The entries of a path come before those of an operation, and each of them is read
through references. Two entries with one name and one location declare the same
parameter: it stands where the first of them stands, and it is what the last of
them says.

While entries are merged, their names and locations may be any scalars, and an
entry that is overridden is not looked at again. But an entry that is kept is
lowered, so its name and location are texts, and no other scalar equals a text:
where an operation is lowered, every entry is a declaration.
-/

set_option autoImplicit false

namespace TypedApi.Operation

open Build

/-! ## Lists without repetitions -/

section EraseDups

variable {α : Type} [BEq α] [LawfulBEq α] {l : List α} {a : α}

/-- An element that was there before adds nothing. -/
theorem eraseDups_concat_of_mem (h : a ∈ l) : (l ++ [a]).eraseDups = l.eraseDups := by
  rw [List.eraseDups_append]
  simp [List.removeAll, h]

/-- A new element goes to the end. -/
theorem eraseDups_concat_of_not_mem (h : a ∉ l) :
    (l ++ [a]).eraseDups = l.eraseDups ++ [a] := by
  rw [List.eraseDups_append]
  simp [List.removeAll, h, List.eraseDups_cons]

theorem nodup_eraseDups (l : List α) : l.eraseDups.Nodup := by
  induction l using List.reverseRecOn with
  | nil => exact List.nodup_nil
  | append_singleton l a ih =>
    by_cases h : a ∈ l
    · rwa [eraseDups_concat_of_mem h]
    · rw [eraseDups_concat_of_not_mem h, List.nodup_append]
      refine ⟨ih, List.nodup_singleton _, ?_⟩
      rintro b hb _ hc rfl
      exact h (List.mem_singleton.mp hc ▸ List.mem_eraseDups.mp hb)

end EraseDups

/-! ## Declarations -/

/-- What an entry for a parameter declares: the entry, the value that it is read as, and the name and
the location there. -/
structure Declaration where
  entry : Document
  param : Document
  name : String
  location : Location

namespace Declaration

/-- What tells parameters apart. -/
def key (d : Declaration) : String × Location :=
  (d.name, d.location)

/-- The parameter for a declaration and its item. -/
def parameter (d : Declaration) (item : Ref) : Parameter where
  generatedName := Name.escape (Name.snake d.name)
  specName := d.name
  location := d.location
  required := isRequired d.param
  item := item

/-- Lower a declaration. -/
def lower (document : Document) (d : Declaration) : Build Parameter := do
  let (_, item) ← convertParameter document d.entry
  return d.parameter item

/-- The key of a declaration as the document spells it. -/
def spelled (d : Declaration) : Document × Document :=
  (.text d.name, .text d.location.text)

/-- A declaration is what an entry of a document means. -/
structure Of (document entry : Document) (d : Declaration) : Prop where
  entry_eq : d.entry = entry
  param_eq : document.followOrBlame entry = .ok d.param
  name_eq : nameOf d.param = .text d.name
  location_eq : locationOf d.param = .text d.location.text

/-- The entries that a path or an operation has for parameters, if it has the form for them. -/
def entriesOf? (d : Document) : Option (List Document) := do
  ((← d.get? "parameters").orElse (.array [])).elements?

/-! ## Merging -/

/-- The declarations that count: one for each key of all, in the order in which the keys first stand
there, and each of them the last with its key. -/
structure Merges (all chosen : List Declaration) : Prop where
  keys : chosen.map key = (all.map key).eraseDups
  last : ∀ d ∈ chosen, ∃ before after, all = before ++ d :: after ∧ ∀ e ∈ after, e.key ≠ d.key

/-- Put a declaration in the place of an earlier one with its key, or at the end. -/
def place (d : Declaration) : List Declaration → List Declaration
  | [] => [d]
  | e :: rest => if e.key = d.key then d :: rest else e :: place d rest

theorem keys_place (d : Declaration) (l : List Declaration) :
    (place d l).map key = if d.key ∈ l.map key then l.map key else l.map key ++ [d.key] := by
  induction l with
  | nil => rfl
  | cons e rest ih =>
    by_cases heq : e.key = d.key
    · simp [place, heq]
    · rw [place, if_neg heq, List.map_cons, ih]
      by_cases hmem : d.key ∈ rest.map key
      · simp [hmem]
      · simp [hmem, Ne.symm heq]

/-- In a list without repetitions, what stands beside the declaration that is placed has another
key. -/
theorem mem_place {d e : Declaration} {l : List Declaration} (hl : (l.map key).Nodup)
    (he : e ∈ place d l) : e = d ∨ e ∈ l ∧ e.key ≠ d.key := by
  induction l with
  | nil => exact .inl (List.mem_singleton.mp he)
  | cons f rest ih =>
    rw [List.map_cons, List.nodup_cons] at hl
    by_cases heq : f.key = d.key
    · rw [place, if_pos heq] at he
      rcases List.mem_cons.mp he with he | he
      · exact .inl he
      · refine .inr ⟨List.mem_cons_of_mem _ he, fun hsame => hl.1 ?_⟩
        rw [heq, ← hsame]
        exact List.mem_map_of_mem he
    · rw [place, if_neg heq] at he
      rcases List.mem_cons.mp he with rfl | he
      · exact .inr ⟨List.mem_cons_self, heq⟩
      · exact (ih hl.2 he).imp_right fun ⟨hmem, hne⟩ => ⟨List.mem_cons_of_mem _ hmem, hne⟩

namespace Merges

theorem nodup {all chosen : List Declaration} (h : Merges all chosen) :
    (chosen.map key).Nodup := by
  rw [h.keys]
  exact nodup_eraseDups _

/-- One more declaration is placed among those that count. -/
theorem snoc {all chosen : List Declaration} (h : Merges all chosen) (d : Declaration) :
    Merges (all ++ [d]) (place d chosen) := by
  constructor
  · have hmem : d.key ∈ chosen.map key ↔ d.key ∈ all.map key := by
      rw [h.keys, List.mem_eraseDups]
    rw [keys_place, List.map_append, List.map_singleton]
    by_cases hold : d.key ∈ all.map key
    · rw [if_pos (hmem.mpr hold), eraseDups_concat_of_mem hold, h.keys]
    · rw [if_neg (mt hmem.mp hold), eraseDups_concat_of_not_mem hold, h.keys]
  · intro e he
    rcases mem_place h.nodup he with rfl | ⟨he, hne⟩
    · exact ⟨all, [], rfl, by simp⟩
    · obtain ⟨before, after, rfl, hafter⟩ := h.last e he
      refine ⟨before, after ++ [d], by simp, fun f hf => ?_⟩
      rcases List.mem_append.mp hf with hf | hf
      · exact hafter f hf
      · rw [List.mem_singleton.mp hf]
        exact Ne.symm hne

/-- Placing one declaration after the other leaves those that count. -/
theorem foldl_place (all : List Declaration) :
    Merges all (all.foldl (fun chosen d => place d chosen) []) := by
  induction all using List.reverseRecOn with
  | nil => exact ⟨rfl, by simp⟩
  | append_singleton all d ih =>
    rw [List.foldl_append]
    exact ih.snoc d

end Merges

/-! ## Keys that are texts -/

/-- The key that is stored for an entry is its own, or equal to it. -/
def Alike (k key : Document × Document) : Prop :=
  k = key ∨ k.1.same key.1 = true ∧ k.2.same key.2 = true

theorem same_text (k : Document) (s : String) : k.same (.text s) = k.isText s := by
  cases k <;> simp [Document.same, Document.integer?, Document.isText]

theorem text_same (k : Document) (s : String) : (Document.text s).same k = k.isText s := by
  cases k with
  | text t =>
    rw [Document.same, Document.isText]
    exact decide_eq_decide.mpr eq_comm
  | _ => simp [Document.same, Document.integer?, Document.isText]

/-- No other key equals one that is made of texts. -/
theorem alike_spelled_iff {k : Document × Document} {d : Declaration} :
    Alike k d.spelled ↔ k = d.spelled := by
  refine ⟨fun h => ?_, .inl⟩
  rcases h with rfl | ⟨hname, hlocation⟩
  · rfl
  · rw [spelled, same_text, Schema.isText_iff] at hname hlocation
    exact Prod.ext hname hlocation

theorem spelled_alike_iff {k : Document × Document} {d : Declaration} :
    Alike d.spelled k ↔ k = d.spelled := by
  refine ⟨fun h => ?_, fun h => .inl h.symm⟩
  rcases h with rfl | ⟨hname, hlocation⟩
  · rfl
  · rw [spelled, text_same, Schema.isText_iff] at hname hlocation
    exact Prod.ext hname hlocation

variable {key : Document × Document} {entry : Document}
  {l : List ((Document × Document) × Document)} {p : (Document × Document) × Document}

/-- After an entry is put, the pairs are those before and one that holds the entry. -/
theorem mem_putEntry (h : p ∈ putEntry key entry l) : p ∈ l ∨ p.2 = entry ∧ Alike p.1 key := by
  induction l with
  | nil =>
    rw [List.mem_singleton.mp h]
    exact .inr ⟨rfl, .inl rfl⟩
  | cons q rest ih =>
    obtain ⟨k, e⟩ := q
    rw [putEntry] at h
    split at h
    · rename_i hsame
      rcases List.mem_cons.mp h with rfl | h
      · exact .inr ⟨rfl, .inr (by simpa using hsame)⟩
      · exact .inl (List.mem_cons_of_mem _ h)
    · rcases List.mem_cons.mp h with rfl | h
      · exact .inl List.mem_cons_self
      · exact (ih h).imp_left (List.mem_cons_of_mem _)

/-- No key is lost when an entry is put. -/
theorem fst_mem_putEntry (h : p ∈ l) : ∃ q ∈ putEntry key entry l, q.1 = p.1 := by
  induction l with
  | nil => cases h
  | cons r rest ih =>
    obtain ⟨k, e⟩ := r
    rw [putEntry]
    split
    · rcases List.mem_cons.mp h with rfl | h
      · exact ⟨_, List.mem_cons_self, rfl⟩
      · exact ⟨p, List.mem_cons_of_mem _ h, rfl⟩
    · rcases List.mem_cons.mp h with rfl | h
      · exact ⟨_, List.mem_cons_self, rfl⟩
      · obtain ⟨q, hq, hfst⟩ := ih h
        exact ⟨q, List.mem_cons_of_mem _ hq, hfst⟩

/-- The key of an entry that is put is there, or one that equals it. -/
theorem exists_alike_putEntry (key : Document × Document) (entry : Document)
    (l : List ((Document × Document) × Document)) : ∃ q ∈ putEntry key entry l, Alike q.1 key := by
  induction l with
  | nil => exact ⟨_, List.mem_singleton_self _, .inl rfl⟩
  | cons r rest ih =>
    obtain ⟨k, e⟩ := r
    rw [putEntry]
    split
    · rename_i hsame
      exact ⟨_, List.mem_cons_self, .inr (by simpa using hsame)⟩
    · obtain ⟨q, hq, halike⟩ := ih
      exact ⟨q, List.mem_cons_of_mem _ hq, halike⟩

/-- The entries with their keys, put one after the other. -/
def putAll (keyed : List ((Document × Document) × Document)) :
    List ((Document × Document) × Document) :=
  keyed.foldl (fun acc p => putEntry p.1 p.2 acc) []

/-- What is kept for some entries has the keys of all of them, and holds nothing but them. -/
theorem putAll_alike (keyed : List ((Document × Document) × Document)) :
    (∀ p ∈ putAll keyed, ∃ q ∈ keyed, q.2 = p.2 ∧ Alike p.1 q.1) ∧
      ∀ q ∈ keyed, ∃ p ∈ putAll keyed, Alike p.1 q.1 := by
  induction keyed using List.reverseRecOn with
  | nil => exact ⟨by simp [putAll], by simp⟩
  | append_singleton keyed r ih =>
    have hsnoc : putAll (keyed ++ [r]) = putEntry r.1 r.2 (putAll keyed) := by
      rw [putAll, List.foldl_append]
      rfl
    rw [hsnoc]
    refine ⟨fun p hp => ?_, fun q hq => ?_⟩
    · rcases mem_putEntry hp with hp | ⟨hentry, halike⟩
      · obtain ⟨q, hq, hrest⟩ := ih.1 p hp
        exact ⟨q, List.mem_append_left _ hq, hrest⟩
      · exact ⟨r, by simp, hentry.symm, halike⟩
    · rcases List.mem_append.mp hq with hq | hq
      · obtain ⟨p, hp, halike⟩ := ih.2 q hq
        obtain ⟨p', hp', hfst⟩ := fst_mem_putEntry hp
        exact ⟨p', hp', by rwa [hfst]⟩
      · rw [List.mem_singleton.mp hq]
        exact exists_alike_putEntry _ _ _

/-- A declaration with its key, as the merge keeps it. -/
def tagged (d : Declaration) : (Document × Document) × Document :=
  (d.spelled, d.entry)

theorem spelled_inj {d e : Declaration} : d.spelled = e.spelled ↔ d.key = e.key := by
  have hlocation : ∀ a b : Location, a.text = b.text → a = b := by
    intro a b h
    cases a <;> cases b <;> first | rfl | exact absurd h (by decide)
  simp only [spelled, key, Prod.mk.injEq, Document.text.injEq]
  exact and_congr_right fun _ => ⟨hlocation _ _, congrArg _⟩

/-- Putting entries whose keys are texts is placing their declarations. -/
theorem putEntry_tagged (d : Declaration) (l : List Declaration) :
    putEntry d.spelled d.entry (l.map tagged) = (place d l).map tagged := by
  induction l with
  | nil => rfl
  | cons e rest ih =>
    have hsame : (e.spelled.1.same d.spelled.1 && e.spelled.2.same d.spelled.2) = true ↔
        e.key = d.key := by
      rw [← spelled_inj, ← alike_spelled_iff, Bool.and_eq_true]
      exact ⟨.inr, fun h => alike_spelled_iff.mp h ▸ by simp [spelled, same_text, Document.isText]⟩
    rw [List.map_cons, tagged, putEntry, place]
    by_cases heq : e.key = d.key
    · rw [if_pos (hsame.mpr heq), if_pos heq, spelled_inj.mpr heq]
      rfl
    · rw [if_neg (mt hsame.mp heq), if_neg heq, ih]
      rfl

/-- The entries that are kept are those of the declarations that count. -/
theorem putAll_tagged (all : List Declaration) :
    ∃ chosen, Merges all chosen ∧ putAll (all.map tagged) = chosen.map tagged := by
  refine ⟨_, .foldl_place all, ?_⟩
  induction all using List.reverseRecOn with
  | nil => rfl
  | append_singleton all d ih =>
    rw [putAll, List.map_append, List.foldl_append, List.foldl_append]
    rw [putAll] at ih
    rw [ih]
    exact putEntry_tagged d _

/-! ## Entries that are lowered -/

variable {document : Document}

/-- A value that is no reference is read as itself. -/
theorem followOrBlame_of_find?_eq_none {value : Document} (h : value.find? "$ref" = none) :
    document.followOrBlame value = .ok value := by
  simp [Document.followOrBlame, Document.follow, Document.chain, Document.chainFrom, h,
    Document.blameReference, Except.map]

theorem location_of_parse {name d : Document} {location : Location}
    (h : Location.parse name d = .ok location) : d = .text location.text := by
  rw [Location.parse] at h
  split at h
  · cases h
    exact Schema.isText_iff.mp ‹_›
  · split at h
    · cases h
      exact Schema.isText_iff.mp ‹_›
    · split at h
      · cases h
        exact Schema.isText_iff.mp ‹_›
      · split at h <;> cases h

/-- An entry that is lowered is a declaration, and the parameter that comes out is the one for it. -/
theorem exists_of_converted {w w' : Workbench} {p : Parameter}
    (h : exec (do
      let (param, item) ← convertParameter document entry
      makeParameter param item) w = (.ok p, w')) :
    ∃ (d : Declaration) (item : Ref), Of document entry d ∧ p = d.parameter item ∧
      exec (convertParameter document entry) w = (.ok (d.param, item), w') := by
  obtain ⟨⟨param, item⟩, u, hconvert, h⟩ := of_exec_bind_ok h
  have hparam : document.followOrBlame entry = .ok param := by
    rw [convertParameter] at hconvert
    obtain ⟨_, _, hconvert⟩ := of_exec_bind_steady (.require _) hconvert
    split at hconvert
    · obtain ⟨_, _, _, hconvert⟩ := of_exec_bind_ok hconvert
      cases hconvert
      exact followOrBlame_of_find?_eq_none ‹_›
    · obtain ⟨_, hfollow, hconvert⟩ := of_exec_bind_steady (.lift _) hconvert
      obtain ⟨_, _, _, hconvert⟩ := of_exec_bind_ok hconvert
      cases hconvert
      exact of_exec_lift_ok (hfollow w)
  obtain ⟨_, _, h⟩ := of_exec_bind_steady (.require _) h
  obtain ⟨name, hname, h⟩ := of_exec_bind_steady (.require _) h
  obtain ⟨location, hlocation, h⟩ := of_exec_bind_steady (.lift _) h
  rw [exec_pure, Prod.mk.injEq, Except.ok.injEq] at h
  obtain ⟨rfl, rfl⟩ := h
  exact ⟨⟨entry, param, name, location⟩, item, ⟨rfl, hparam,
    Schema.eq_text_of_text? (of_exec_require_ok (hname u)),
    location_of_parse (of_exec_lift_ok (hlocation u))⟩, rfl, hconvert⟩

/-- A missing location makes no difference: it would be read as the empty text or as null, and
neither is a location. -/
theorem location_iff {param : Document} {location : Location} :
    (param.find? "in").getD (.text "") = .text location.text ↔
      locationOf param = .text location.text := by
  rw [locationOf]
  cases param.find? "in" with
  | some x => rfl
  | none => cases location <;> simp [Location.text]

/-- An entry with the key of a declaration is one. -/
theorem exists_of_parameterKey {d : Declaration}
    (h : parameterKey document entry = .ok d.spelled) :
    ∃ e : Declaration, Of document entry e ∧ e.spelled = d.spelled := by
  rw [parameterKey] at h
  obtain ⟨param, hparam, h⟩ := of_bind_eq_ok h
  obtain ⟨_, _, h⟩ := of_bind_eq_ok h
  dsimp only at h
  split at h
  · have hkey := Except.ok.inj h
    have hname : nameOf param = .text d.name := congrArg Prod.fst hkey
    have hlocation : locationOf param = .text d.location.text :=
      location_iff.mp (congrArg Prod.snd hkey)
    exact ⟨⟨entry, param, d.name, d.location⟩, ⟨rfl, hparam, hname, hlocation⟩, rfl⟩
  · cases h

/-- The key of a declaration is that of its entry. -/
theorem Of.spelled_eq {d : Declaration} (h : Of document entry d) {key : Document × Document}
    (hkey : parameterKey document entry = .ok key) : key = d.spelled := by
  rw [parameterKey, h.param_eq] at hkey
  obtain ⟨_, hparam, hkey⟩ := of_bind_eq_ok hkey
  cases hparam
  obtain ⟨_, _, hkey⟩ := of_bind_eq_ok hkey
  dsimp only at hkey
  rw [location_iff.mpr h.location_eq, h.name_eq] at hkey
  split at hkey
  · exact (Except.ok.inj hkey).symm
  · cases hkey

/-- An entry is one declaration only. -/
theorem Of.unique {d e : Declaration} (hd : Of document entry d) (he : Of document entry e) :
    d = e := by
  have hparam : d.param = e.param := Except.ok.inj (hd.param_eq.symm.trans he.param_eq)
  have hspelled : d.spelled = e.spelled := by
    rw [spelled, spelled, ← hd.name_eq, ← hd.location_eq, ← he.name_eq, ← he.location_eq, hparam]
  obtain ⟨hname, hlocation⟩ := Prod.mk.inj (spelled_inj.mp hspelled)
  have hentry : d.entry = e.entry := hd.entry_eq.trans he.entry_eq.symm
  cases d
  cases e
  simp_all

/-! ## The parameters of an operation -/

/-- What counts among the declarations of some entries is one of them. -/
theorem Merges.of_mem {entries : List Document} {all chosen : List Declaration} {d : Declaration}
    (h : Merges all chosen) (hall : List.Forall₂ (Of document) entries all) (hd : d ∈ chosen) :
    Of document d.entry d := by
  obtain ⟨before, after, rfl, _⟩ := h.last d hd
  obtain ⟨entry, _, hof⟩ :=
    exists_of_mem_forall₂_right hall (List.mem_append_right _ List.mem_cons_self)
  exact hof.entry_eq ▸ hof

/-- A merge that goes on from what has been kept puts each further entry under its own key. -/
theorem exists_keyed_of_foldlM {entries : List Document}
    {acc kept : List ((Document × Document) × Document)}
    (h : entries.foldlM (fun acc entry => do
      return putEntry (← parameterKey document entry) entry acc) acc = .ok kept) :
    ∃ keyed : List ((Document × Document) × Document), keyed.map Prod.snd = entries ∧
      (∀ p ∈ keyed, parameterKey document p.2 = .ok p.1) ∧
      kept = keyed.foldl (fun acc p => putEntry p.1 p.2 acc) acc := by
  induction entries generalizing acc with
  | nil =>
    cases h
    exact ⟨[], rfl, by simp, rfl⟩
  | cons entry entries ih =>
    rw [List.foldlM_cons] at h
    obtain ⟨next, hnext, h⟩ := of_bind_eq_ok h
    obtain ⟨key, hkey, hnext⟩ := of_bind_eq_ok hnext
    cases hnext
    obtain ⟨keyed, hentries, hkeys, hfold⟩ := ih h
    exact ⟨(key, entry) :: keyed, by simp [hentries], by simpa [hkey] using hkeys, hfold⟩

/-- The entries of a merge with their keys. -/
theorem exists_keyed_of_mergeParameters {pathEntries ownEntries merged : List Document}
    (h : mergeParameters document pathEntries ownEntries = .ok merged) :
    ∃ keyed : List ((Document × Document) × Document),
      keyed.map Prod.snd = pathEntries ++ ownEntries ∧
      (∀ p ∈ keyed, parameterKey document p.2 = .ok p.1) ∧
      merged = (putAll keyed).map Prod.snd := by
  rw [mergeParameters] at h
  obtain ⟨kept, hkept, h⟩ := of_bind_eq_ok h
  cases h
  obtain ⟨keyed, hentries, hkeys, hfold⟩ := exists_keyed_of_foldlM hkept
  exact ⟨keyed, hentries, hkeys, by rw [hfold, putAll]⟩

/-- If every entry that is kept is a declaration, so is every entry. -/
theorem exists_all_of_kept {keyed : List ((Document × Document) × Document)}
    (hkeys : ∀ p ∈ keyed, parameterKey document p.2 = .ok p.1)
    (hkept : ∀ p ∈ putAll keyed, ∃ d, Of document p.2 d) :
    ∃ all, List.Forall₂ (Of document) (keyed.map Prod.snd) all ∧ keyed = all.map tagged := by
  obtain ⟨hsub, hsup⟩ := putAll_alike keyed
  have hdeclared : ∀ q ∈ keyed, ∃ d : Declaration, Of document q.2 d ∧ q = d.tagged := by
    intro q hq
    -- an entry that is kept has its own key, and that is the key of the others it stands for
    obtain ⟨p, hp, halike⟩ := hsup q hq
    obtain ⟨d, hd⟩ := hkept p hp
    obtain ⟨r, hr, hentry, hown⟩ := hsub p hp
    have hkeptKey : p.1 = d.spelled :=
      alike_spelled_iff.mp (hd.spelled_eq (hentry ▸ hkeys r hr) ▸ hown)
    have hkey : q.1 = d.spelled := spelled_alike_iff.mp (hkeptKey ▸ halike)
    obtain ⟨e, he, hsame⟩ := exists_of_parameterKey (hkey ▸ hkeys q hq)
    exact ⟨e, he, Prod.ext (hkey.trans hsame.symm) he.entry_eq.symm⟩
  obtain ⟨all, hall⟩ := exists_forall₂ hdeclared
  refine ⟨all, List.forall₂_map_left_iff.mpr (hall.imp fun _ _ h => h.1), ?_⟩
  have hsame := hall.imp fun q d (h : Of document q.2 d ∧ q = d.tagged) => h.2
  rwa [← List.forall₂_map_right_iff, List.forall₂_eq_eq_eq] at hsame

/-- The entries for parameters, where they are read. -/
theorem entriesOf?_of_exec {d : Document} {entries : List Document} {w : Workbench}
    (h : exec (do require ((← field d "parameters").orElse (.array [])).elements?) w =
      (.ok entries, w)) : entriesOf? d = some entries := by
  obtain ⟨x, hx, h⟩ := of_exec_bind_steady (.field _ _) h
  rw [entriesOf?, of_exec_require_ok (hx w)]
  exact of_exec_require_ok h

/-- Where the parameters of an operation come from. The entries of its path, and then its own, are
declarations when they are read through references; of those that count among them, each one is
lowered, in order, and makes one parameter. -/
structure Sourced (document pathItem operation : Document) (w w' : Workbench)
    (all chosen : List Declaration) (declared : List Parameter) : Prop where
  entries : ∃ pathEntries ownEntries, entriesOf? pathItem = some pathEntries ∧
    entriesOf? operation = some ownEntries ∧
    List.Forall₂ (Of document) (pathEntries ++ ownEntries) all
  merges : Merges all chosen
  lowered : exec (chosen.mapM (lower document)) w = (.ok declared, w')
  made : List.Forall₂ (fun d p => p = d.parameter p.item) chosen declared

/-- What lowering a declaration answers is the parameter for it. -/
theorem of_lower {d : Declaration} {p : Parameter} (h : Answers (lower document d) p) :
    p = d.parameter p.item := by
  obtain ⟨w, w', h⟩ := h
  obtain ⟨⟨param, item⟩, u, _, h⟩ := of_exec_bind_ok h
  rw [exec_pure, Prod.mk.injEq, Except.ok.injEq] at h
  rw [← h.1]
  rfl

/-- **The parameters of an operation are those of the declarations that count** among the
declarations of its path and its own. -/
theorem exists_sourced {pathItem operation : Document} {declared : List Parameter}
    {w w' : Workbench} (h : exec (parametersOf document pathItem operation) w = (.ok declared, w')) :
    ∃ all chosen, Sourced document pathItem operation w w' all chosen declared := by
  rw [parametersOf] at h
  dsimp only at h
  obtain ⟨pathEntries, hpath, h⟩ := of_exec_bind_steady (steady_entries _) h
  obtain ⟨ownEntries, hown, h⟩ := of_exec_bind_steady (steady_entries _) h
  obtain ⟨merged, hmerged, h⟩ := of_exec_bind_steady (.lift _) h
  obtain ⟨keyed, hkeyed, hkeys, rfl⟩ :=
    exists_keyed_of_mergeParameters (of_exec_lift_ok (hmerged w))
  have hanswers := forall₂_of_exec_mapM h
  -- what is kept was lowered, so it is a declaration
  obtain ⟨all, hall, rfl⟩ := exists_all_of_kept hkeys fun p hp => by
    obtain ⟨param, _, u, u', hconvert⟩ := exists_of_mem_forall₂ hanswers (List.mem_map_of_mem hp)
    obtain ⟨d, _, hd, _⟩ := exists_of_converted hconvert
    exact ⟨d, hd⟩
  obtain ⟨chosen, hmerges, hchosen⟩ := putAll_tagged all
  rw [hchosen, List.map_map] at h
  -- the entries that are kept are lowered as the declarations that they are
  have hlowered : exec (chosen.mapM (lower document)) w = (.ok declared, w') := by
    refine exec_mapM_of_forall₂ (List.forall₂_map_left_iff.mpr (List.forall₂_same.mpr ?_)) h
    intro d hd u u' p hp
    obtain ⟨e, item, he, rfl, hconvert⟩ := exists_of_converted hp
    obtain rfl := he.unique (hmerges.of_mem hall hd)
    exact exec_bind_ok hconvert
  exact ⟨all, chosen,
    ⟨pathEntries, ownEntries, entriesOf?_of_exec (hpath w), entriesOf?_of_exec (hown w),
      hkeyed ▸ hall⟩,
    hmerges, hlowered, (forall₂_of_exec_mapM hlowered).imp fun _ _ => of_lower⟩

end Declaration

end TypedApi.Operation
