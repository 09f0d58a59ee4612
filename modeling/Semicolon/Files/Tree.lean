import Semicolon.Files.Path

/-!
# File trees

A file tree is a whole file system: regular files with their content, folders, and the folder in
which relative paths begin.  There are no links of any kind, neither symbolic nor hard: a file has
one place, and a place has one file or folder or nothing.

A path is walked piece by piece, from the root if it is absolute and from the working folder
otherwise; `..` leads to the folder above, and from the root to the root.  Where it leads is what
tells whether two paths name the same thing.

## Main definitions

* `FileTree`: files and folders, none of which is in the way of another.
* `FileTree.locate`: the place a path names.
* `FileTree.read`: the content of a file.
* `FileTree.put`, `FileTree.write`: the tree after a file was written.
-/

namespace Semicolon

/-- Why the file system refuses. -/
inductive FileError
  | notFound
  | notADirectory
  | isADirectory
  | nameTooLong
  /-- A name holds the character with number zero. -/
  | nulInName
  deriving DecidableEq, Repr

/-- The error as the system words it. -/
def FileError.message : FileError → String
  | notFound => "No such file or directory (os error 2)"
  | notADirectory => "Not a directory (os error 20)"
  | isADirectory => "Is a directory (os error 21)"
  | nameTooLong => "File name too long (os error 36)"
  | nulInName => "file name contained an unexpected NUL byte"

/-- A place in a tree: the names that lead to it from the root. -/
abbrev Location := List Text

/-- The files and folders of a file system.  A folder that holds something need not be listed. -/
@[ext] structure FileTree where
  files : List (Location × Bytes) := []
  folders : List Location
  /-- The working folder, in which relative paths begin. -/
  base : Location
  base_mem : base ∈ folders := by decide
  /-- A place is listed once. -/
  nodup_places : (files.map (·.1)).Nodup := by decide
  /-- No file is a folder or holds one. -/
  not_begins_folder : ∀ file ∈ files, ∀ folder ∈ folders, ¬ file.1 <+: folder := by decide
  /-- No file holds another. -/
  eq_of_begins_file : ∀ file ∈ files, ∀ other ∈ files, file.1 <+: other.1 → file.1 = other.1 := by
    decide
  deriving DecidableEq, Repr

namespace FileTree

/-- A tree that has nothing but the working folder, and the folders in which it lies. -/
def bare (base : Location) : FileTree where
  files := []
  folders := [base]
  base
  base_mem := List.mem_singleton.2 rfl
  nodup_places := .nil
  not_begins_folder := by simp
  eq_of_begins_file := by simp

/-- A tree that has nothing but its root. -/
def empty : FileTree := bare []

/-- The content of the file at a place. -/
def content? (tree : FileTree) (place : Location) : Option Bytes :=
  tree.files.lookup place

/-- Whether there is a folder at the place: it is listed, or something lies below it. -/
def isFolder (tree : FileTree) (place : Location) : Bool :=
  tree.folders.any place.isPrefixOf ||
    tree.files.any fun file => place.isPrefixOf file.1 && place != file.1

/-- Whether there is a file or a folder at the place. -/
def exists? (tree : FileTree) (place : Location) : Bool :=
  (tree.content? place).isSome || tree.isFolder place

/-- The name that comes next after `place` on the way to `target`. -/
def nextName? (place target : Location) : Option Text :=
  if place.isPrefixOf target then (target.drop place.length).head? else none

/-- The names in a folder, in ascending order. -/
def names (tree : FileTree) (place : Location) : List Text :=
  let found := (tree.files.map (·.1) ++ tree.folders).filterMap (nextName? place)
  found.eraseDups.mergeSort Text.le

/-- The length of the longest way in the tree. -/
def depth (tree : FileTree) : Nat :=
  ((tree.files.map (·.1) ++ tree.folders).map List.length).foldl max 0

/-! ## Putting files and folders -/

variable {tree : FileTree}

/-- A folder is listed, or it is above a file. -/
theorem isFolder_iff {place : Location} :
    tree.isFolder place = true ↔ (∃ folder ∈ tree.folders, place <+: folder) ∨
      ∃ file ∈ tree.files, place <+: file.1 ∧ place ≠ file.1 := by
  simp [isFolder]

/-- What lies on the way to a folder is a folder. -/
theorem isFolder_of_begins {above place : Location} (h : above <+: place)
    (hfolder : tree.isFolder place = true) : tree.isFolder above = true := by
  rw [isFolder_iff] at hfolder ⊢
  rcases hfolder with ⟨folder, hmem, hplace⟩ | ⟨file, hmem, hplace, hne⟩
  · exact .inl ⟨folder, hmem, h.trans hplace⟩
  · refine .inr ⟨file, hmem, h.trans hplace, ?_⟩
    rintro rfl
    exact hne (hplace.eq_of_length_le h.length_le)

/-- **No file is a folder.** -/
theorem isFolder_eq_false_of_mem {file : Location × Bytes} (h : file ∈ tree.files) :
    tree.isFolder file.1 = false := by
  rw [Bool.eq_false_iff, Ne, isFolder_iff]
  rintro (⟨folder, hmem, hplace⟩ | ⟨other, hmem, hplace, hne⟩)
  · exact tree.not_begins_folder file h folder hmem hplace
  · exact hne (tree.eq_of_begins_file file h other hmem hplace)

/-- Whether a file can be at the place: it is no folder, and lies in one. -/
def admits (tree : FileTree) (place : Location) : Bool :=
  place != [] && tree.isFolder place.dropLast && !tree.isFolder place

theorem admits_iff {place : Location} :
    tree.admits place = true ↔
      place ≠ [] ∧ tree.isFolder place.dropLast = true ∧ tree.isFolder place = false := by
  simp [admits, and_assoc]

/-- A way to a place is the place or leads to the folder in which it lies. -/
theorem begins_dropLast {above place : Location} (h : above <+: place) (hne : above ≠ place) :
    above <+: place.dropLast := by
  rcases List.eq_nil_or_concat place with rfl | ⟨front, name, rfl⟩
  · exact absurd (List.prefix_nil.1 h) hne
  · rw [List.concat_eq_append, List.prefix_concat_iff] at h
    rw [List.concat_eq_append, List.dropLast_concat]
    exact h.resolve_left (by simpa using hne)

/-- No file stands in the way of a place where a file can be. -/
theorem eq_of_begins_admitted {file : Location × Bytes} {place : Location}
    (hmem : file ∈ tree.files) (h : tree.admits place = true) (hbegins : file.1 <+: place) :
    file.1 = place := by
  by_cases heq : file.1 = place
  · exact heq
  · have hfolder := isFolder_of_begins (begins_dropLast hbegins heq) (admits_iff.1 h).2.1
    rw [isFolder_eq_false_of_mem hmem] at hfolder
    exact absurd hfolder Bool.false_ne_true

/-- The files after one was put at a place. -/
def putFiles (place : Location) (content : Bytes) (files : List (Location × Bytes)) :
    List (Location × Bytes) :=
  (place, content) :: files.filter (·.1 != place)

theorem mem_putFiles {place : Location} {content : Bytes} {files : List (Location × Bytes)}
    {file : Location × Bytes} (h : file ∈ putFiles place content files) :
    file = (place, content) ∨ file ∈ files := by
  rcases List.mem_cons.1 h with rfl | hmem
  · exact .inl rfl
  · exact .inr (List.mem_filter.1 hmem).1

section PutFiles

variable {place : Location} (h : tree.admits place = true) (content : Bytes)

theorem nodup_putFiles : ((putFiles place content tree.files).map (·.1)).Nodup := by
  rw [putFiles, List.map_cons, List.nodup_cons]
  refine ⟨by simp, ?_⟩
  exact tree.nodup_places.sublist (List.filter_sublist.map _)

include h

/-- A file that is put is neither a folder nor on the way to one. -/
theorem not_begins_folder_putFiles : ∀ file ∈ putFiles place content tree.files,
    ∀ folder ∈ tree.folders, ¬ file.1 <+: folder := by
  intro file hfile folder hfolder hbegins
  rcases mem_putFiles hfile with rfl | hfile
  · have hplace : tree.isFolder place = true := isFolder_iff.2 (.inl ⟨folder, hfolder, hbegins⟩)
    rw [(admits_iff.1 h).2.2] at hplace
    exact Bool.false_ne_true hplace
  · exact tree.not_begins_folder file hfile folder hfolder hbegins

/-- A file that is put is not on the way to another, nor is another on the way to it. -/
theorem eq_of_begins_putFiles : ∀ file ∈ putFiles place content tree.files,
    ∀ other ∈ putFiles place content tree.files, file.1 <+: other.1 → file.1 = other.1 := by
  intro file hfile other hother hbegins
  rcases mem_putFiles hfile with rfl | hfile
  · rcases mem_putFiles hother with rfl | hother
    · rfl
    · by_cases heq : place = other.1
      · exact heq
      · -- What lies on the way to a file is a folder.
        have hplace : tree.isFolder place = true :=
          isFolder_iff.2 (.inr ⟨other, hother, hbegins, heq⟩)
        rw [(admits_iff.1 h).2.2] at hplace
        exact absurd hplace Bool.false_ne_true
  · rcases mem_putFiles hother with rfl | hother
    · exact eq_of_begins_admitted hfile h hbegins
    · exact tree.eq_of_begins_file file hfile other hother hbegins

end PutFiles

/-- Puts a file at a place, over the file that was there.  Where no file can be, nothing is put. -/
def put (tree : FileTree) (place : Location) (content : Bytes) : FileTree :=
  if h : tree.admits place = true then
    { tree with
      files := putFiles place content tree.files
      nodup_places := nodup_putFiles content
      not_begins_folder := not_begins_folder_putFiles h content
      eq_of_begins_file := eq_of_begins_putFiles h content }
  else tree

/-- Makes a folder and those in which it lies.  Where a file is in the way, none is made. -/
def makeFolder (tree : FileTree) (place : Location) : FileTree :=
  if h : ∀ file ∈ tree.files, ¬ file.1 <+: place then
    { tree with
      folders := place :: tree.folders
      base_mem := List.mem_cons_of_mem place tree.base_mem
      not_begins_folder := by
        intro file hfile folder hfolder
        rcases List.mem_cons.1 hfolder with rfl | hfolder
        · exact h file hfile
        · exact tree.not_begins_folder file hfile folder hfolder }
  else tree

/-! ## Walking -/

/-- The longest name the file system takes, in bytes. -/
def maxName : Nat := 255

/-- The longest path the file system takes, in bytes. -/
def maxPath : Nat := 4095

/-- Where a piece leads from a place.  There is nothing above the root. -/
def step (tree : FileTree) (place : Location) (piece : Text) : Except FileError Location :=
  if !tree.isFolder place then .error .notADirectory
  else if piece = ['.'] then .ok place
  else if piece = ['.', '.'] then .ok place.dropLast
  else if maxName < Text.byteSize piece then .error .nameTooLong
  else if tree.exists? (place ++ [piece]) then .ok (place ++ [piece])
  else .error .notFound

/-- Where pieces lead from a place. -/
def walk (tree : FileTree) (start : Location) (pieces : List Text) : Except FileError Location :=
  pieces.foldlM tree.step start

/-- Where a path begins. -/
def start (tree : FileTree) (path : Path) : Location :=
  if path.isAbsolute then [] else tree.base

/-- The pieces of a path that can be walked at all. -/
def walkable (path : Path) : Except FileError (List Text) :=
  if path.spelling.contains '\x00' then .error .nulInName
  else if maxPath < Text.byteSize path.spelling then .error .nameTooLong
  else if path.spelling.isEmpty then .error .notFound
  else .ok path.pieces

/-- The place of the file or folder a path names.  A path that ends with a separator names a
folder. -/
def locate (tree : FileTree) (path : Path) : Except FileError Location := do
  let place ← tree.walk (tree.start path) (← walkable path)
  if path.endsWithSeparator && !tree.isFolder place then .error .notADirectory
  else .ok place

/-- Whether a path names a regular file. -/
def isFile (tree : FileTree) (path : Path) : Bool :=
  match tree.locate path with
  | .ok place => (tree.content? place).isSome
  | .error _ => false

/-- Whether a path names a folder. -/
def isFolderAt (tree : FileTree) (path : Path) : Bool :=
  match tree.locate path with
  | .ok place => tree.isFolder place
  | .error _ => false

/-- Whether a path names anything. -/
def existsAt (tree : FileTree) (path : Path) : Bool :=
  (tree.locate path).isOk

/-! ## Reading and writing -/

/-- The content of the file a path names. -/
def read (tree : FileTree) (path : Path) : Except FileError Bytes := do
  match tree.content? (← tree.locate path) with
  | some content => .ok content
  | none => .error .isADirectory

/-- The place where a file written under the path goes.  The folder has to be there; the file
need not. -/
def target (tree : FileTree) (path : Path) : Except FileError Location := do
  let pieces ← walkable path
  let folder ← tree.walk (tree.start path) pieces.dropLast
  if !tree.isFolder folder then .error .notADirectory
  else
    match pieces.getLast? with
    | none => .error .isADirectory
    | some name =>
      if path.endsWithSeparator || name = ['.'] || name = ['.', '.'] then .error .isADirectory
      else if maxName < Text.byteSize name then .error .nameTooLong
      else if tree.isFolder (folder ++ [name]) then .error .isADirectory
      else .ok (folder ++ [name])

/-- The tree after `content` was written under the path, in place of what the file held. -/
def write (tree : FileTree) (path : Path) (content : Bytes) : Except FileError FileTree := do
  return tree.put (← tree.target path) content

end FileTree

end Semicolon
