import TypedApi.Workspace.Basic
import Mathlib.Tactic.Common
/-!
Folders and the files in them.

Making the folders of a path leaves a workspace in which the path leads through
folders, with no file in the way, and changes no file. There a file can be written
under the path and read again, unless a folder has its place.
-/

set_option autoImplicit false

namespace TypedApi.Workspace

variable {w w' : Workspace} {place : Place} {name : String} {names more : List String} {p : Path}
  {content : Content}

/-- The place that a name leads to. -/
def Place.next (place : Place) (name : String) : Place :=
  if name = ".." then place.dropLast else place ++ [name]

/-- Names lead through folders, one after the other, and no file is in the way. -/
def LeadsThrough (w : Workspace) (place : Place) : List String → Prop
  | [] => True
  | name :: rest =>
    w.files.contains (place.next name).text = false ∧ w.isFolder (place.next name) = true ∧
      w.LeadsThrough (place.next name) rest

/-- A workspace with more folders. -/
def withFolders (w : Workspace) (more : List String) : Workspace :=
  { w with folders := w.folders ++ more }

theorem isFolder_withFolders (h : w.isFolder place = true) :
    (w.withFolders more).isFolder place = true := by
  simp only [isFolder, withFolders, Bool.or_eq_true, List.contains_eq_mem, decide_eq_true_eq,
    List.mem_append] at h ⊢
  exact h.imp_right Or.inl

/-- **Folders that are made are there**, and nothing else has changed. -/
theorem exists_of_makeFolders (h : w.makeFolders place names = some w') :
    (∃ more, w' = w.withFolders more) ∧ w'.LeadsThrough place names := by
  induction names generalizing w place with
  | nil =>
    cases h
    exact ⟨⟨[], by simp [withFolders]⟩, trivial⟩
  | cons name rest ih =>
    rw [makeFolders] at h
    change (if w.files.contains (place.next name).text then none
      else if w.isFolder (place.next name) then makeFolders w (place.next name) rest
      else makeFolders (w.withFolders [(place.next name).text]) (place.next name) rest) = _ at h
    split at h
    · cases h
    · rename_i hfile
      rw [Bool.not_eq_true] at hfile
      split at h
      · rename_i hfolder
        obtain ⟨⟨more, rfl⟩, hrest⟩ := ih h
        exact ⟨⟨more, rfl⟩, hfile, isFolder_withFolders hfolder, hrest⟩
      · obtain ⟨⟨more, rfl⟩, hrest⟩ := ih h
        refine ⟨⟨(place.next name).text :: more, by simp [withFolders]⟩, hfile, ?_, hrest⟩
        refine isFolder_withFolders ?_
        simp [isFolder, withFolders]

/-- Folders that are there are not made anew. -/
theorem LeadsThrough.makeFolders_eq (h : w.LeadsThrough place names) :
    w.makeFolders place names = some w := by
  induction names generalizing place with
  | nil => rfl
  | cons name rest ih =>
    obtain ⟨hfile, hfolder, hrest⟩ := h
    rw [makeFolders]
    change (if w.files.contains (place.next name).text then none
      else if w.isFolder (place.next name) then makeFolders w (place.next name) rest
      else makeFolders (w.withFolders [(place.next name).text]) (place.next name) rest) = _
    rw [hfile, if_neg Bool.false_ne_true, if_pos hfolder]
    exact ih hrest

/-- The place that names lead to through folders is a folder. -/
theorem LeadsThrough.isFolder (h : w.LeadsThrough place names) (hne : names ≠ []) :
    w.isFolder (names.foldl Place.next place) = true := by
  induction names generalizing place with
  | nil => exact absurd rfl hne
  | cons name rest ih =>
    obtain ⟨_, hfolder, hrest⟩ := h
    cases rest with
    | nil => exact hfolder
    | cons => exact ih hrest (List.cons_ne_nil _ _)

/-- Behind folders stands what has the last name. -/
theorem LeadsThrough.walk_eq (h : w.LeadsThrough place names) (hname : name ≠ "..") :
    w.walk place (names ++ [name]) = some (names.foldl Place.next place ++ [name]) := by
  induction names generalizing place with
  | nil => exact congrArg some (if_neg hname)
  | cons first rest ih =>
    obtain ⟨_, hfolder, hrest⟩ := h
    obtain ⟨second, others, hcons⟩ : ∃ second others, rest ++ [name] = second :: others :=
      List.exists_cons_of_ne_nil (by simp)
    have hstep : w.walk place (first :: second :: others) =
        if w.isFolder (place.next first) then w.walk (place.next first) (second :: others)
        else none := rfl
    rw [List.cons_append, hcons, hstep, if_pos hfolder, ← hcons]
    exact ih hrest

/-! ## The folder at a path -/

/-- A path leads through folders. -/
def HasFolder (w : Workspace) (p : Path) : Prop :=
  w.LeadsThrough (w.start p) p.names

theorem exists_of_makeFolder (h : w.makeFolder p = .ok w') :
    (∃ more, w' = w.withFolders more) ∧ w'.HasFolder p := by
  unfold makeFolder at h
  split at h
  · rename_i hmade
    cases h
    obtain ⟨⟨more, rfl⟩, hleads⟩ := exists_of_makeFolders hmade
    exact ⟨⟨more, rfl⟩, hleads⟩
  · cases h

theorem HasFolder.makeFolder_eq (h : w.HasFolder p) : w.makeFolder p = .ok w := by
  rw [makeFolder, h.makeFolders_eq]

/-- The place of a file in the folder at a path. -/
def placeIn (w : Workspace) (p : Path) (name : String) : Place :=
  p.names.foldl Place.next (w.start p) ++ [name]

theorem HasFolder.place?_child (h : w.HasFolder p) (hname : name ≠ "..") :
    w.place? (p.child name) = some (w.placeIn p name) :=
  h.walk_eq hname

/-- A place below another is not written as the root is. -/
theorem Place.text_append_ne (place : Place) (hname : name ≠ "") :
    (place ++ [name]).text ≠ Place.text [] := by
  have hjoined : "/".intercalate (place ++ [name]) ≠ "" := by
    cases place with
    | nil =>
      rw [List.nil_append, String.intercalate_singleton]
      exact hname
    | cons first rest =>
      obtain ⟨second, others, hcons⟩ : ∃ second others, rest ++ [name] = second :: others :=
        List.exists_cons_of_ne_nil (by simp)
      rw [List.cons_append, hcons, String.intercalate_cons_cons]
      intro h
      simpa using congrArg String.toList h
  intro h
  have h : "/" ++ "/".intercalate (place ++ [name]) = "/" ++ "" := h
  exact hjoined (String.append_right_inj _ |>.mp h)

/-- What is written to a place. -/
def withFile (w : Workspace) (place : Place) (content : Content) : Workspace :=
  { w with files := w.files.insert place.text content }

/-- A file that is written where there is no folder is in the way of none. -/
theorem LeadsThrough.withFile {start : Place} (h : w.LeadsThrough start names)
    (hfree : w.isFolder place = false) (hroot : place.text ≠ Place.text []) (content : Content) :
    (w.withFile place content).LeadsThrough start names := by
  induction names generalizing start with
  | nil => trivial
  | cons name rest ih =>
    obtain ⟨hfile, hfolder, hrest⟩ := h
    have hne : (start.next name).text ≠ place.text := by
      intro heq
      rw [Workspace.isFolder, Bool.or_eq_true] at hfolder
      obtain hempty | hmade := hfolder
      · rw [List.isEmpty_iff] at hempty
        exact hroot (heq ▸ hempty ▸ rfl)
      · rw [Workspace.isFolder, ← heq, hmade, Bool.or_true] at hfree
        cases hfree
    refine ⟨?_, hfolder, ih hrest⟩
    rw [Workspace.withFile, Table.contains, Table.get?_insert_of_ne _ _ hne]
    exact hfile

/-- **A file can be written in a folder**, and the folder stays. -/
theorem HasFolder.writeFile_child (h : w.HasFolder p) (hne : p.names ≠ []) (hdots : name ≠ "..")
    (hname : name ≠ "") (hfree : w.isFolder (w.placeIn p name) = false) (content : Content) :
    w.writeFile (p.child name) content = .ok (w.withFile (w.placeIn p name) content) ∧
      (w.withFile (w.placeIn p name) content).HasFolder p := by
  have hfolder : w.isFolder (w.placeIn p name).dropLast = true := by
    rw [placeIn, List.dropLast_concat]
    exact LeadsThrough.isFolder h hne
  refine ⟨?_, LeadsThrough.withFile h hfree (Place.text_append_ne _ hname) content⟩
  rw [writeFile, h.place?_child hdots]
  dsimp only
  rw [hfree, hfolder]
  rfl

/-- **What is written is there.** -/
theorem HasFolder.file?_withFile (h : (w.withFile (w.placeIn p name) content).HasFolder p)
    (hdots : name ≠ "..") :
    (w.withFile (w.placeIn p name) content).file? (p.child name) = some content := by
  have hplace : (w.withFile (w.placeIn p name) content).place? (p.child name) =
      some (w.placeIn p name) := h.place?_child hdots
  rw [file?, hplace]
  exact Table.get?_insert_self _ _ _

end TypedApi.Workspace
