import TypedApi.Proofs.Build.Run
import TypedApi.Proofs.Document.Json.Made
import TypedApi.Proofs.Document.Json.Written
import TypedApi.Proofs.Document.Legible
import TypedApi.Proofs.Settings.Fields
import TypedApi.Proofs.Text.Numeral
import TypedApi.Proofs.Workspace.Folders
import TypedApi.Settings.Store
import Mathlib.Algebra.Group.Nat.Defs
/-!
Stored settings.

Settings are loaded from the directory for settings, which is made if it is not there.
Settings that are stored are loaded again as they were. For this the name of the format
must not have the two halves of a pair side by side, which a reader of escapes joins, and
the integer must not have more digits than a numeral may have; no integer that is loaded
has.
-/

set_option autoImplicit false

namespace TypedApi

variable {w w' : Workspace} {s : Settings} {d : Document}

/-- The path of a directory has a name. -/
theorem Directory.names_path_ne_nil (d : Directory) (w : Workspace) : (d.path w).names ≠ [] := by
  unfold Directory.path
  split
  · simp [Workspace.Path.child]
  · simp [Directory.below, Workspace.Path.child]

namespace Settings

open Document (record)
open Document.Json (Kept RoundTrips roundTrips_bool roundTrips_int roundTrips_record roundTrips_text)
open Setting (Value)
open Workspace (Content)

/-! ## The text of settings -/

/-- Settings that come back from where they are stored. -/
structure IsStorable (s : Settings) : Prop where
  format : Text.AreWhole s.format.toList
  ttl : s.docsCache.ttlSeconds.natAbs < 10 ^ Text.digitLimit

theorem roundTrips_dump (h : IsStorable s) : RoundTrips 3 s.dump := by
  have hcache : RoundTrips 1 (record [("enabled", .bool s.docsCache.enabled),
      ("ttl_seconds", .int s.docsCache.ttlSeconds)]) := by
    refine roundTrips_record (show ["enabled", "ttl_seconds"].Nodup by decide) ?_
    simp only [List.forall_mem_cons]
    exact ⟨⟨by decide, roundTrips_bool 0 _⟩, ⟨by decide, roundTrips_int 0 h.ttl⟩, nofun⟩
  have hgenerator : RoundTrips 2 (record [
      ("bounded_integers", .bool s.options.boundedIntegers),
      ("emit_docs", .bool s.options.emitDocs),
      ("fetch_external_docs", .bool s.options.fetchExternalDocs),
      ("docs_cache", record [("enabled", .bool s.docsCache.enabled),
        ("ttl_seconds", .int s.docsCache.ttlSeconds)])]) := by
    refine roundTrips_record (show ["bounded_integers", "emit_docs", "fetch_external_docs",
      "docs_cache"].Nodup by decide) ?_
    simp only [List.forall_mem_cons]
    exact ⟨⟨by decide, roundTrips_bool 1 _⟩, ⟨by decide, roundTrips_bool 1 _⟩,
      ⟨by decide, roundTrips_bool 1 _⟩, ⟨by decide, hcache⟩, nofun⟩
  have houtput : RoundTrips 2 (record [("format", .text s.format)]) := by
    refine roundTrips_record (show ["format"].Nodup by decide) ?_
    simp only [List.forall_mem_cons]
    exact ⟨⟨by decide, roundTrips_text 1 h.format⟩, nofun⟩
  refine roundTrips_record (show ["generator", "output"].Nodup by decide) ?_
  simp only [List.forall_mem_cons]
  exact ⟨⟨by decide, hgenerator⟩, ⟨by decide, houtput⟩, nofun⟩

/-- **The text of settings** is that of the document that they are written out as. -/
theorem documentOf_text (h : IsStorable s) (problem : SettingsProblem) :
    documentOf problem (.text s.text) = .ok s.dump := by
  obtain ⟨text, hwrite, hreturn, hread⟩ :=
    Document.Json.read_of_roundTrips (roundTrips_dump h) (by decide)
  have htext : s.text = text ++ "\n" := by rw [Settings.text, hwrite]; rfl
  have hcontent : (Content.text s.text).read? = some s.text := by
    rw [Content.read?, htext, Text.unifyNewlines_eq_self hreturn, String.ofList_toList]
  rw [documentOf, hcontent, Option.map_some, htext, hread]

/-! ## What is loaded -/

/-- Whether an integer has no more digits than a numeral may have. -/
def isShort : Document → Bool
  | .int n => n.natAbs < 10 ^ Text.digitLimit
  | _ => true

theorem everywhere_int (p : Document → Bool) (n : Int) :
    (Document.int n).everywhere p = p (.int n) := rfl

theorem everywhere_isShort_ofFields {fields : List (Document × Document)}
    (h : ∀ q ∈ fields, (∃ s, q.1 = .text s) ∧ q.2.everywhere isShort = true) :
    (Document.ofFields fields).everywhere isShort = true := by
  have hstored : Document.everywhereFields isShort
      (fields.foldl (fun acc p => Document.putField acc p.1 p.2) []) = true := by
    refine List.foldlRecOn (motive := fun stored => Document.everywhereFields isShort stored = true)
      fields _ rfl fun stored ih q hq => ?_
    obtain ⟨⟨key, hkey⟩, hx⟩ := h q hq
    rw [hkey]
    exact Document.everywhereFields_putField ih rfl hx
  rw [Document.ofFields, Document.everywhere, hstored]
  rfl

/-- The integers of a document that is read are short. -/
theorem everywhere_isShort_of_read {text : String} (h : Document.Json.read text = .ok d) :
    d.everywhere isShort = true := by
  refine Kept.of_read (P := fun d => d.everywhere isShort = true)
    ⟨by decide, fun _ => rfl, fun n hn => ?_, fun _ => rfl, fun items hitems => ?_,
      fun fields hfields => everywhere_isShort_ofFields hfields⟩ h
  · rw [everywhere_int, isShort, decide_eq_true_eq]
    exact hn
  · have hall : Document.everywhereItems isShort items = true := by
      induction items with
      | nil => rfl
      | cons x items ih =>
        obtain ⟨hx, hrest⟩ := List.forall_mem_cons.mp hitems
        rw [Document.everywhereItems, hx, ih hrest]
        rfl
    rw [Document.everywhere, hall]
    rfl

/-- A text spells no integer that is longer. -/
theorem natAbs_lt_of_integerText? {text : String} {n : Int}
    (h : Document.integerText? text = some n) : n.natAbs < 10 ^ Text.digitLimit := by
  have hnatural : ∀ {cs : List Char} {m : Nat}, Document.asciiNatural? cs = some m →
      m < 10 ^ Text.digitLimit := by
    intro cs m hm
    unfold Document.asciiNatural? at hm
    split at hm
    · exact (Text.natural?_eq_some_iff.mp hm).lt
    · cases hm
  unfold Document.integerText? at h
  split at h
  all_goals
    obtain ⟨_, hz, rfl⟩ := Option.map_eq_some_iff.mp h
    obtain ⟨m, hm, hcast⟩ := Option.bind_eq_some_iff.mp hz
    cases hcast
  · rw [Int.natAbs_neg, Int.natAbs_natCast]
    exact hnatural hm
  · exact hnatural hm
  · exact hnatural hm

/-- The count that a short value spells is short. -/
theorem natAbs_lt_of_count? {n : Int} (hshort : isShort d = true) (h : d.count? = some n) :
    n.natAbs < 10 ^ Text.digitLimit := by
  -- what is no integer and no text spells one that fits in 64 bits
  have hsmall : 10 ^ 19 ≤ 10 ^ Text.digitLimit := Nat.pow_le_pow_right (by decide) (by decide)
  cases d with
  | bool b =>
    refine Nat.lt_of_lt_of_le ?_ hsmall
    cases b <;> cases h <;> decide
  | int m =>
    cases h
    rw [isShort, decide_eq_true_eq] at hshort
    exact hshort
  | float x =>
    refine Nat.lt_of_lt_of_le ?_ hsmall
    rw [Document.count?] at h
    split at h
    · split at h
      · rename_i hlt
        cases h
        exact Nat.lt_of_lt_of_le hlt (by decide)
      · cases h
    · cases h
  | text t => exact natAbs_lt_of_integerText? h
  | bytes bs =>
    obtain ⟨t, _, ht⟩ := Option.bind_eq_some_iff.mp h
    exact natAbs_lt_of_integerText? ht
  | _ => cases h

theorem everywhere_of_along? {p : Document → Bool} {x : Document} {path : List String}
    (h : d.everywhere p = true) (hx : d.along? path = some x) : x.everywhere p = true := by
  induction path generalizing d with
  | nil => exact Option.some.inj hx ▸ h
  | cons key path ih =>
    obtain ⟨y, hy, hx⟩ := Option.bind_eq_some_iff.mp hx
    exact ih (Document.everywhere_of_find? h hy) hx

/-- A document that is stored is one that was read. -/
theorem exists_read_of_documentOf {problem : SettingsProblem} {content : Content}
    (h : documentOf problem content = .ok d) : ∃ text, Document.Json.read text = .ok d := by
  unfold documentOf at h
  split at h
  · rename_i hread
    obtain ⟨text, _, hread⟩ := Option.map_eq_some_iff.mp hread
    cases h
    exact ⟨text, hread⟩
  · cases h
  · cases h

/-- **The time of settings that are loaded** has no more digits than a numeral may have. -/
theorem ttl_lt_of_stored (h : stored w = .ok s) :
    s.docsCache.ttlSeconds.natAbs < 10 ^ Text.digitLimit := by
  have hdefault : Int.natAbs 86400 < 10 ^ Text.digitLimit :=
    Nat.lt_of_lt_of_le (show Int.natAbs 86400 < 10 ^ 5 by decide)
      (Nat.pow_le_pow_right (by decide) (by decide))
  unfold stored at h
  split at h
  · cases h
    exact hdefault
  · obtain ⟨d, hd, h⟩ := of_bind_eq_ok h
    obtain ⟨text, hread⟩ := exists_read_of_documentOf hd
    split at h
    · rename_i t ht
      cases h
      have hget := (ofDocument?_eq_some_iff.mp ht).2 .cacheTtl
      cases hgiven : given? d .cacheTtl with
      | none =>
        rw [hgiven] at hget
        rw [Value.count.inj hget]
        exact hdefault
      | some value =>
        obtain ⟨v, hv, hvalue⟩ := Option.bind_eq_some_iff.mp hgiven
        obtain ⟨n, hn, rfl⟩ := Option.map_eq_some_iff.mp hvalue
        rw [hgiven] at hget
        rw [Value.count.inj hget]
        exact natAbs_lt_of_count?
          (Document.of_everywhere (everywhere_of_along? (everywhere_isShort_of_read hread) hv)) hn
    · cases h

/-! ## Loading and saving -/

/-- The settings that are loaded in a workspace, where the directory for them is made if it is not
there. -/
def Loads (w : Workspace) (s : Settings) : Prop :=
  ∃ w', w.makeFolder (Directory.config.path w) = .ok w' ∧ stored w' = .ok s

/-- The place of the stored settings. -/
def storedPlace (w : Workspace) : Workspace.Place :=
  w.placeIn (Directory.config.path w) "config.json"

/-- **Settings that are stored are loaded again**, and the rest of the workspace is as it was. -/
theorem save_loads (hfolder : w.HasFolder (Directory.config.path w))
    (hfree : w.isFolder (storedPlace w) = false) (hs : IsStorable s) :
    s.save w = .ok (w.withFile (storedPlace w) (.text s.text)) ∧
      (w.withFile (storedPlace w) (.text s.text)).HasFolder (Directory.config.path w) ∧
      Loads (w.withFile (storedPlace w) (.text s.text)) s := by
  have hname : "config.json" ≠ ".." ∧ "config.json" ≠ "" := by decide
  obtain ⟨hwrite, hkept⟩ : w.writeFile (storedPath w) (.text s.text) =
      .ok (w.withFile (storedPlace w) (.text s.text)) ∧
        (w.withFile (storedPlace w) (.text s.text)).HasFolder (Directory.config.path w) :=
    hfolder.writeFile_child (Directory.names_path_ne_nil .config w) hname.1 hname.2 hfree _
  constructor
  · rw [save, hfolder.makeFolder_eq]
    exact hwrite
  · have hfile : (w.withFile (storedPlace w) (.text s.text)).file?
        (storedPath (w.withFile (storedPlace w) (.text s.text))) = some (.text s.text) :=
      hkept.file?_withFile hname.1
    refine ⟨hkept, _, hkept.makeFolder_eq, ?_⟩
    rw [stored, hfile]
    dsimp only
    rw [documentOf_text hs]
    simp only [bind, Except.bind, ofDocument?_dump]
    rfl

/-- The settings that a workspace keeps: they are loaded, they come back if they are stored, and no
folder has the place of their file. -/
structure Keeps (w : Workspace) (s : Settings) : Prop where
  loads : Loads w s
  free : ∀ w', w.makeFolder (Directory.config.path w) = .ok w' → w'.isFolder (storedPlace w') = false
  format : Text.AreWhole s.format.toList

/-- Settings that are kept are there once the directory is. -/
theorem Keeps.exists_made (h : Keeps w s) :
    ∃ more, w.makeFolder (Directory.config.path w) = .ok (w.withFolders more) ∧
      stored (w.withFolders more) = .ok s ∧
      (w.withFolders more).HasFolder (Directory.config.path w) := by
  obtain ⟨w', hmade, hstored⟩ := h.loads
  obtain ⟨⟨more, rfl⟩, hfolder⟩ := Workspace.exists_of_makeFolder hmade
  exact ⟨more, hmade, hstored, hfolder⟩

/-- Settings that are kept can be stored. -/
theorem Keeps.isStorable (h : Keeps w s) : IsStorable s := by
  obtain ⟨w', _, hstored⟩ := h.loads
  exact ⟨h.format, ttl_lt_of_stored hstored⟩

/-- Making the directory changes nothing about the settings. -/
theorem Keeps.made (h : Keeps w s) (hmade : w.makeFolder (Directory.config.path w) = .ok w') :
    Keeps w' s := by
  obtain ⟨more, hmade', hstored, hfolder⟩ := h.exists_made
  rw [hmade] at hmade'
  cases hmade'
  have hagain := hfolder.makeFolder_eq
  refine ⟨⟨_, hagain, hstored⟩, fun w'' hw'' => ?_, h.format⟩
  obtain rfl : w.withFolders more = w'' := Except.ok.inj (hagain.symm.trans hw'')
  exact h.free _ hmade

/-- A workspace in which no more has been done than that keeps them too. -/
theorem Keeps.prepared (h : Keeps w s)
    (hw : w' = w ∨ w.makeFolder (Directory.config.path w) = .ok w') :
    Keeps w' s ∧ w'.files = w.files := by
  obtain rfl | hmade := hw
  · exact ⟨h, rfl⟩
  · obtain ⟨⟨more, rfl⟩, _⟩ := Workspace.exists_of_makeFolder hmade
    exact ⟨h.made hmade, rfl⟩

/-- **Settings that are stored are kept**, and the rest of the workspace is as it was. -/
theorem Keeps.save {t : Settings} (h : Keeps w s) (hfolder : w.HasFolder (Directory.config.path w))
    (ht : IsStorable t) : ∃ w', t.save w = .ok w' ∧ Keeps w' t := by
  have hfree : w.isFolder (storedPlace w) = false := h.free w hfolder.makeFolder_eq
  obtain ⟨hsave, hkept, hloads⟩ := save_loads hfolder hfree ht
  refine ⟨_, hsave, hloads, fun w' hw' => ?_, ht.format⟩
  obtain rfl := Except.ok.inj (hkept.makeFolder_eq.symm.trans hw')
  exact hfree

end Settings

end TypedApi
