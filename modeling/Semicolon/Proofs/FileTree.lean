import Mathlib.Data.List.Basic
import Semicolon.Files.Tree

/-!
# Paths in a tree that is written to

A path is walked from folder to folder.  The place where a file is written under a path lies in a
folder and is none; if there is a file already, it is the place that the path names, and the other
way round.

Writing a file there makes no folder and removes none.  Whatever could be reached before can be
reached after, and the content of all other files is the same.

## Main statements

* `FileTree.content?_put_eq_if`: contents after a file was put somewhere.
* `FileTree.target_of_locate`: where a file that exists is written.
* `FileTree.read_put_of_ne`: other files are read as before.
-/

namespace Semicolon

/-- Two steps succeed if the first does and the second does with its result. -/
theorem bind_eq_ok_iff {ε α β : Type} {first : Except ε α} {next : α → Except ε β} {b : β} :
    first >>= next = .ok b ↔ ∃ a, first = .ok a ∧ next a = .ok b := by
  cases first with
  | error error => simp [bind, Except.bind]
  | ok a => simp [bind, Except.bind]

theorem mapError_eq_ok_iff {ε δ α : Type} {result : Except ε α} {f : ε → δ} {a : α} :
    result.mapError f = .ok a ↔ result = .ok a := by
  cases result <;> simp [Except.mapError]

namespace FileTree

variable {tree : FileTree}

/-! ## Files and folders -/

/-- The places of the files. -/
def places (tree : FileTree) : List Location := tree.files.map (·.1)

theorem mem_places_iff {place : Location} :
    place ∈ tree.places ↔ (tree.content? place).isSome = true := by
  rw [content?, List.lookup_isSome_iff, places, List.mem_map]
  constructor
  · rintro ⟨file, hmem, rfl⟩
    exact ⟨file, hmem, by simp⟩
  · rintro ⟨file, hmem, hplace⟩
    exact ⟨file, hmem, (beq_iff_eq.1 hplace).symm⟩

theorem isFolder_eq_false_of_mem_places {place : Location} (h : place ∈ tree.places) :
    tree.isFolder place = false := by
  obtain ⟨file, hmem, rfl⟩ := List.mem_map.1 h
  exact isFolder_eq_false_of_mem hmem

theorem exists?_iff {place : Location} :
    tree.exists? place = true ↔ place ∈ tree.places ∨ tree.isFolder place = true := by
  rw [mem_places_iff, exists?, Bool.or_eq_true]

/-- The root is a folder. -/
theorem isFolder_nil (tree : FileTree) : tree.isFolder [] = true :=
  isFolder_iff.2 (.inl ⟨tree.base, tree.base_mem, List.nil_prefix⟩)

/-- Paths begin in folders. -/
theorem isFolder_start (tree : FileTree) (path : Path) :
    tree.isFolder (tree.start path) = true := by
  unfold start
  split
  · exact isFolder_nil tree
  · exact isFolder_iff.2 (.inl ⟨tree.base, tree.base_mem, List.prefix_rfl⟩)

/-- A file can be where there is one. -/
theorem admits_of_mem_places {place : Location} (h : place ∈ tree.places) :
    tree.admits place = true := by
  have hnot := isFolder_eq_false_of_mem_places h
  have hne : place ≠ [] := by
    rintro rfl
    exact absurd tree.isFolder_nil (by simp [hnot])
  refine admits_iff.2 ⟨hne, ?_, hnot⟩
  obtain ⟨file, hmem, rfl⟩ := List.mem_map.1 h
  refine isFolder_iff.2 (.inr ⟨file, hmem, List.dropLast_prefix _, ?_⟩)
  intro heq
  have hlength := congrArg List.length heq
  have hpositive := List.length_pos_iff.2 hne
  rw [List.length_dropLast] at hlength
  omega

/-! ## Contents -/

theorem lookup_filter_ne {files : List (Location × Bytes)} {place other : Location}
    (h : other ≠ place) :
    (files.filter (·.1 != place)).lookup other = files.lookup other := by
  induction files with
  | nil => rfl
  | cons file rest ih =>
    obtain ⟨key, content⟩ := file
    by_cases hkey : key = place
    · have hother : (other == key) = false := by simpa [hkey] using h
      simp [hkey, hkey ▸ hother, List.lookup_cons, ih]
    · simp [hkey, List.lookup_cons, ih]

theorem files_put {place : Location} (h : tree.admits place = true) (content : Bytes) :
    (tree.put place content).files = putFiles place content tree.files := by
  rw [put, dif_pos h]

@[simp] theorem folders_put (tree : FileTree) (place : Location) (content : Bytes) :
    (tree.put place content).folders = tree.folders := by
  unfold put
  split <;> rfl

@[simp] theorem base_put (tree : FileTree) (place : Location) (content : Bytes) :
    (tree.put place content).base = tree.base := by
  unfold put
  split <;> rfl

/-- **Contents after a file was put at a place.** -/
theorem content?_put_eq_if {place : Location} (h : tree.admits place = true) (other : Location)
    (content : Bytes) :
    (tree.put place content).content? other =
      if other = place then some content else tree.content? other := by
  rw [content?, files_put h, putFiles, List.lookup_cons]
  by_cases heq : other = place
  · simp [heq]
  · have hbeq : (other == place) = false := by simpa using heq
    rw [if_neg heq, hbeq]
    exact lookup_filter_ne heq

theorem content?_put {place : Location} (h : tree.admits place = true) (content : Bytes) :
    (tree.put place content).content? place = some content := by
  rw [content?_put_eq_if h, if_pos rfl]

theorem content?_put_of_ne {place other : Location} (hne : other ≠ place) (content : Bytes) :
    (tree.put place content).content? other = tree.content? other := by
  by_cases h : tree.admits place = true
  · rw [content?_put_eq_if h, if_neg hne]
  · rw [put, dif_neg h]

/-- **Writing a file makes no folder and removes none.** -/
@[simp] theorem isFolder_put (tree : FileTree) (place : Location) (content : Bytes) :
    (tree.put place content).isFolder = tree.isFolder := by
  by_cases h : tree.admits place = true
  · funext other
    rw [Bool.eq_iff_iff, isFolder_iff, isFolder_iff, files_put h, folders_put]
    constructor
    · rintro (hlisted | ⟨file, hmem, hbegins, hne⟩)
      · exact .inl hlisted
      · rcases mem_putFiles hmem with rfl | hmem
        · -- What is above the new file was on the way to its folder.
          have hfolder := isFolder_of_begins (begins_dropLast hbegins hne) (admits_iff.1 h).2.1
          exact isFolder_iff.1 hfolder
        · exact .inr ⟨file, hmem, hbegins, hne⟩
    · rintro (hlisted | ⟨file, hmem, hbegins, hne⟩)
      · exact .inl hlisted
      · by_cases heq : file.1 = place
        · exact .inr ⟨(place, content), by simp [putFiles], heq ▸ hbegins, heq ▸ hne⟩
        · exact .inr ⟨file, by simp [putFiles, hmem, heq], hbegins, hne⟩
  · rw [put, dif_neg h]

@[simp] theorem admits_put (tree : FileTree) (place : Location) (content : Bytes) :
    (tree.put place content).admits = tree.admits := by
  funext other
  rw [admits, admits, isFolder_put]

/-- Of two files put at the same place the second stays. -/
@[simp] theorem put_put (tree : FileTree) (place : Location) (first second : Bytes) :
    (tree.put place first).put place second = tree.put place second := by
  by_cases h : tree.admits place = true
  · have hagain : (tree.put place first).admits place = true := by rwa [admits_put]
    refine FileTree.ext ?_ (by simp) (by simp)
    simp [files_put hagain, files_put h, putFiles, List.filter_filter]
  · simp only [put, dif_neg h]

theorem mem_places_put {place other : Location} (h : tree.admits place = true)
    {content : Bytes} :
    other ∈ (tree.put place content).places ↔ other = place ∨ other ∈ tree.places := by
  rw [mem_places_iff, content?_put_eq_if h, mem_places_iff]
  by_cases heq : other = place <;> simp [heq]

/-! ## Walking -/

/-- What one piece of a path leads to. -/
theorem step_eq_ok_iff {place next : Location} {piece : Text} :
    tree.step place piece = .ok next ↔ tree.isFolder place = true ∧
      (piece = ['.'] ∧ next = place ∨
        piece = ['.', '.'] ∧ next = place.dropLast ∨
        piece ≠ ['.'] ∧ piece ≠ ['.', '.'] ∧ Text.byteSize piece ≤ maxName ∧
          tree.exists? (place ++ [piece]) = true ∧ next = place ++ [piece]) := by
  unfold step
  by_cases hfolder : tree.isFolder place = true
  · by_cases hhere : piece = ['.']
    · simpa [hfolder, hhere] using eq_comm
    · by_cases hup : piece = ['.', '.']
      · simpa [hfolder, hup] using eq_comm
      · by_cases hlong : maxName < Text.byteSize piece
        · have hnot : ¬ Text.byteSize piece ≤ maxName := by omega
          simp [hfolder, hhere, hup, hlong, hnot]
        · have hshort : Text.byteSize piece ≤ maxName := by omega
          by_cases hexists : tree.exists? (place ++ [piece]) = true
          · simpa [hfolder, hhere, hup, hlong, hshort, hexists] using eq_comm
          · simp [hfolder, hhere, hup, hlong, hexists]
  · simp [hfolder]

theorem walk_cons {start place : Location} {piece : Text} {pieces : List Text} :
    tree.walk start (piece :: pieces) = .ok place ↔
      ∃ next, tree.step start piece = .ok next ∧ tree.walk next pieces = .ok place := by
  rw [walk, List.foldlM_cons, bind_eq_ok_iff]
  rfl

theorem walk_append_singleton {start place : Location} {pieces : List Text} {piece : Text} :
    tree.walk start (pieces ++ [piece]) = .ok place ↔
      ∃ folder, tree.walk start pieces = .ok folder ∧ tree.step folder piece = .ok place := by
  rw [walk, List.foldlM_append, bind_eq_ok_iff]
  simp [walk]

/-! ## Paths -/

theorem walkable_eq_ok {path : Path} {pieces : List Text} (h : walkable path = .ok pieces) :
    pieces = path.pieces := by
  unfold walkable at h
  split at h
  · exact absurd h (by simp)
  split at h
  · exact absurd h (by simp)
  split at h
  · exact absurd h (by simp)
  · simpa using h.symm

theorem locate_eq_ok_iff {path : Path} {place : Location} :
    tree.locate path = .ok place ↔
      ∃ pieces, walkable path = .ok pieces ∧ tree.walk (tree.start path) pieces = .ok place ∧
        (path.endsWithSeparator = true → tree.isFolder place = true) := by
  unfold locate
  simp only [bind_eq_ok_iff]
  constructor
  · rintro ⟨pieces, hpieces, reached, hwalk, hend⟩
    split at hend
    · exact absurd hend (by simp)
    · next hfolder =>
      obtain rfl : reached = place := by simpa using hend
      exact ⟨pieces, hpieces, hwalk, by simpa using hfolder⟩
  · rintro ⟨pieces, hpieces, hwalk, hfolder⟩
    refine ⟨pieces, hpieces, place, hwalk, ?_⟩
    rw [if_neg (by simpa using hfolder)]

/-- Where a file goes that is written under a path. -/
theorem target_eq_ok_iff {path : Path} {place : Location} :
    tree.target path = .ok place ↔
      ∃ pieces folder name, walkable path = .ok (pieces ++ [name]) ∧
        tree.walk (tree.start path) pieces = .ok folder ∧ tree.isFolder folder = true ∧
        path.endsWithSeparator = false ∧ name ≠ ['.'] ∧ name ≠ ['.', '.'] ∧
        Text.byteSize name ≤ maxName ∧ tree.isFolder (folder ++ [name]) = false ∧
        place = folder ++ [name] := by
  unfold target
  simp only [bind_eq_ok_iff]
  constructor
  · rintro ⟨pieces, hpieces, folder, hwalk, hend⟩
    split at hend
    · exact absurd hend (by simp)
    next hfolder =>
    rcases pieces.eq_nil_or_concat' with rfl | ⟨front, name, rfl⟩
    · simp at hend
    rw [List.dropLast_concat] at hwalk
    rw [List.getLast?_concat] at hend
    dsimp only at hend
    split at hend
    · exact absurd hend (by simp)
    next hname =>
    split at hend
    · exact absurd hend (by simp)
    next hsize =>
    split at hend
    · exact absurd hend (by simp)
    next hnot =>
    simp only [Bool.or_eq_true, decide_eq_true_eq, not_or, Bool.not_eq_true] at hname
    refine ⟨front, folder, name, hpieces, hwalk, by simpa using hfolder, hname.1.1, hname.1.2,
      hname.2, by omega, by simpa using hnot, ?_⟩
    simpa using hend.symm
  · rintro ⟨front, folder, name, hpieces, hwalk, hfolder, hseparator, hhere, hup, hsize, hnot, rfl⟩
    refine ⟨_, hpieces, folder, by rwa [List.dropLast_concat], ?_⟩
    have hlong : ¬ maxName < Text.byteSize name := by omega
    simp [hfolder, hseparator, hhere, hup, hlong, hnot]

/-- A file can be where a path leads that is written to. -/
theorem admits_of_target {path : Path} {place : Location} (h : tree.target path = .ok place) :
    tree.admits place = true := by
  obtain ⟨pieces, folder, name, -, -, hfolder, -, -, -, -, hnot, rfl⟩ := target_eq_ok_iff.1 h
  exact admits_iff.2 ⟨by simp, by rwa [List.dropLast_concat], hnot⟩

/-- **The place of a file is where a path leads that writes to it.**  A path that names a file can
be written to, and the last of its pieces is the name of the file. -/
theorem target_of_locate {path : Path} {place : Location} (h : tree.locate path = .ok place)
    (hmem : place ∈ tree.places) : tree.target path = .ok place := by
  obtain ⟨pieces, hpieces, hwalk, hseparator⟩ := locate_eq_ok_iff.1 h
  have hnot := isFolder_eq_false_of_mem_places hmem
  rcases pieces.eq_nil_or_concat' with rfl | ⟨front, name, rfl⟩
  · obtain rfl : tree.start path = place := by simpa [walk, pure, Except.pure] using hwalk
    exact absurd (tree.isFolder_start path) (by simp [hnot])
  obtain ⟨folder, hfront, hstep⟩ := walk_append_singleton.1 hwalk
  obtain ⟨hfolder, ⟨-, rfl⟩ | ⟨-, rfl⟩ | ⟨hhere, hup, hsize, -, rfl⟩⟩ := step_eq_ok_iff.1 hstep
  · -- A dot leads to a folder, and so do two.
    exact absurd hfolder (by simp [hnot])
  · exact absurd (isFolder_of_begins (List.dropLast_prefix folder) hfolder) (by simp [hnot])
  · refine target_eq_ok_iff.2 ⟨front, folder, name, hpieces, hfront, hfolder, ?_, hhere, hup, hsize,
      hnot, rfl⟩
    by_contra hends
    rw [hseparator (by simpa using hends)] at hnot
    exact absurd hnot (by decide)

theorem locate_of_target {path : Path} {place : Location} (h : tree.target path = .ok place)
    (hmem : place ∈ tree.places) : tree.locate path = .ok place := by
  obtain ⟨front, folder, name, hpieces, hwalk, hfolder, hseparator, hhere, hup, hsize, -, rfl⟩ :=
    target_eq_ok_iff.1 h
  refine locate_eq_ok_iff.2 ⟨_, hpieces, ?_, by simp [hseparator]⟩
  refine walk_append_singleton.2 ⟨folder, hwalk, step_eq_ok_iff.2 ⟨hfolder, ?_⟩⟩
  exact .inr (.inr ⟨hhere, hup, hsize, exists?_iff.2 (.inl hmem), rfl⟩)

/-! ## Reading -/

theorem isFile_iff {path : Path} :
    tree.isFile path = true ↔ ∃ place, tree.locate path = .ok place ∧ place ∈ tree.places := by
  unfold isFile
  cases h : tree.locate path with
  | error error => simp
  | ok place => simp [mem_places_iff]

theorem read_eq_ok_iff {path : Path} {content : Bytes} :
    tree.read path = .ok content ↔
      ∃ place, tree.locate path = .ok place ∧ tree.content? place = some content := by
  rw [read, bind_eq_ok_iff]
  constructor
  · rintro ⟨place, hplace, hcontent⟩
    refine ⟨place, hplace, ?_⟩
    cases hfound : tree.content? place with
    | none => simp [hfound] at hcontent
    | some found => simpa [hfound] using hcontent
  · rintro ⟨place, hplace, hcontent⟩
    exact ⟨place, hplace, by rw [hcontent]⟩

theorem content?_of_read {path : Path} {place : Location} {content : Bytes}
    (hplace : tree.locate path = .ok place) (h : tree.read path = .ok content) :
    tree.content? place = some content := by
  obtain ⟨other, hother, hcontent⟩ := read_eq_ok_iff.1 h
  obtain rfl := Except.ok.inj (hplace.symm.trans hother)
  exact hcontent

/-! ## Writing -/

section Put

variable {place : Location} (h : tree.admits place = true) (content : Bytes)
include h

theorem exists?_put_of_exists {other : Location} (hexists : tree.exists? other = true) :
    (tree.put place content).exists? other = true := by
  rw [exists?_iff] at hexists ⊢
  rw [mem_places_put h, isFolder_put]
  rcases hexists with hmem | hfolder
  · exact .inl (.inr hmem)
  · exact .inr hfolder

theorem step_put_of_ok {start next : Location} {piece : Text}
    (hstep : tree.step start piece = .ok next) :
    (tree.put place content).step start piece = .ok next := by
  rw [step_eq_ok_iff] at hstep ⊢
  rw [isFolder_put]
  obtain ⟨hfolder, hhere | hup | ⟨hhere, hup, hsize, hexists, rfl⟩⟩ := hstep
  · exact ⟨hfolder, .inl hhere⟩
  · exact ⟨hfolder, .inr (.inl hup)⟩
  · exact ⟨hfolder, .inr (.inr ⟨hhere, hup, hsize, exists?_put_of_exists h content hexists, rfl⟩)⟩

/-- What could be reached can be reached. -/
theorem walk_put_of_ok {start reached : Location} {pieces : List Text}
    (hwalk : tree.walk start pieces = .ok reached) :
    (tree.put place content).walk start pieces = .ok reached := by
  induction pieces generalizing start with
  | nil => exact hwalk
  | cons piece rest ih =>
    rw [walk_cons] at hwalk ⊢
    obtain ⟨next, hstep, hrest⟩ := hwalk
    exact ⟨next, step_put_of_ok h content hstep, ih hrest⟩

theorem locate_put_of_ok {path : Path} {reached : Location}
    (hlocate : tree.locate path = .ok reached) :
    (tree.put place content).locate path = .ok reached := by
  obtain ⟨pieces, hpieces, hwalk, hseparator⟩ := locate_eq_ok_iff.1 hlocate
  refine locate_eq_ok_iff.2 ⟨pieces, hpieces, ?_, ?_⟩
  · rw [start, base_put]
    exact walk_put_of_ok h content hwalk
  · rwa [isFolder_put]

/-- **A file is read as before if another one was written.** -/
theorem read_put_of_ne {path : Path} {other : Location}
    (hlocate : tree.locate path = .ok other) (hne : other ≠ place) :
    (tree.put place content).read path = tree.read path := by
  rw [read, read, locate_put_of_ok h content hlocate, hlocate]
  simp only [bind, Except.bind, content?_put_of_ne hne]

end Put

end FileTree

end Semicolon
