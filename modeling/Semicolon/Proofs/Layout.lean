import Mathlib.Data.List.Nodup
import Semicolon.Proofs.FileTree
import Semicolon.Source

/-!
# Sources depend on the layout of a tree

Two trees have the same layout if they have files at the same places, the same folders, and the same
working folder.  Paths, patterns and lists of patterns lead to the same places in both, whatever the
files hold and in whatever order they are kept: the names in a folder are sorted before anyone sees
them.

Resolved sources are files that are there.

## Main statements

* `FileTree.SameLayout.put`: overwriting a file keeps the layout.
* `FileTree.SameLayout.lookup_eq`: names are looked up alike in trees of one layout.
* `Source.resolve_of_mapM`: sources from what each pattern stands for.
* `Source.isFile_of_mem_resolve`: sources are regular files.
-/

namespace Semicolon

/-! ## Sorting -/

namespace Text

variable {α : Type}

/-- A relation by which a list can be sorted in one way only. -/
structure IsLinear (le : α → α → Bool) : Prop where
  total : ∀ a b, (le a b || le b a) = true
  trans : ∀ a b c, le a b = true → le b c = true → le a c = true
  antisymm : ∀ a b, le a b = true → le b a = true → a = b

/-- The lexicographic order is linear if the order of the elements is. -/
theorem IsLinear.lexLe [DecidableEq α] {le : α → α → Bool} (h : IsLinear le) :
    IsLinear (lexLe le) := by
  refine ⟨?_, ?_, ?_⟩
  · intro first second
    induction first generalizing second with
    | nil => simp [Text.lexLe]
    | cons a rest ih =>
      cases second with
      | nil => simp [Text.lexLe]
      | cons b others =>
        by_cases hab : a = b
        · simpa [Text.lexLe, hab] using ih others
        · simpa [Text.lexLe, hab, Ne.symm hab] using h.total a b
  · intro first second third hfirst hsecond
    induction first generalizing second third with
    | nil => simp [Text.lexLe]
    | cons a rest ih =>
      cases second with
      | nil => simp [Text.lexLe] at hfirst
      | cons b others =>
        cases third with
        | nil => simp [Text.lexLe] at hsecond
        | cons c more =>
          by_cases hab : a = b
          · subst hab
            by_cases hac : a = c
            · simp only [Text.lexLe, hac, if_true] at hfirst hsecond ⊢
              exact ih others more hfirst hsecond
            · simpa [Text.lexLe, hac] using hsecond
          · simp only [Text.lexLe, hab, if_false] at hfirst
            by_cases hbc : b = c
            · subst hbc
              simpa [Text.lexLe, hab] using hfirst
            · simp only [Text.lexLe, hbc, if_false] at hsecond
              -- If the two ends were equal, the element between them would be equal to both.
              have hac : a ≠ c := by
                rintro rfl
                exact hab (h.antisymm a b hfirst hsecond)
              simpa [Text.lexLe, hac] using h.trans a b c hfirst hsecond
  · intro first second hfirst hsecond
    induction first generalizing second with
    | nil =>
      cases second with
      | nil => rfl
      | cons b others => simp [Text.lexLe] at hsecond
    | cons a rest ih =>
      cases second with
      | nil => simp [Text.lexLe] at hfirst
      | cons b others =>
        by_cases hab : a = b
        · subst hab
          simp only [Text.lexLe, if_true] at hfirst hsecond
          rw [ih others hfirst hsecond]
        · simp only [Text.lexLe, hab, Ne.symm hab, if_false] at hfirst hsecond
          exact absurd (h.antisymm a b hfirst hsecond) hab

theorem isLinear_le : IsLinear Text.le := by
  refine IsLinear.lexLe ⟨?_, ?_, ?_⟩
  · intro a b
    simp only [Bool.or_eq_true, decide_eq_true_eq]
    omega
  · intro a b c hab hbc
    simp only [decide_eq_true_eq] at hab hbc ⊢
    omega
  · intro a b hab hba
    simp only [decide_eq_true_eq] at hab hba
    rw [← Char.ofNat_toNat a, ← Char.ofNat_toNat b, show a.toNat = b.toNat by omega]

theorem nodup_eraseDups [BEq α] [LawfulBEq α] (list : List α) : list.eraseDups.Nodup := by
  cases list with
  | nil => simp
  | cons a rest =>
    rw [List.eraseDups_cons, List.nodup_cons]
    refine ⟨?_, nodup_eraseDups _⟩
    simp [List.mem_eraseDups]
termination_by list.length
decreasing_by
  have hle := List.length_filter_le (fun b : α => !b == a) rest
  simp only [List.length_cons]
  omega

/-- Sorting lists with the same elements gives the same list, once repetitions are gone. -/
theorem IsLinear.mergeSort_eraseDups [BEq α] [LawfulBEq α] {le : α → α → Bool}
    (h : IsLinear le) {first second : List α} (hmem : ∀ a, a ∈ first ↔ a ∈ second) :
    first.eraseDups.mergeSort le = second.eraseDups.mergeSort le := by
  have hperm : first.eraseDups.Perm second.eraseDups := by
    rw [List.perm_ext_iff_of_nodup (nodup_eraseDups _) (nodup_eraseDups _)]
    intro a
    rw [List.mem_eraseDups, List.mem_eraseDups, hmem]
  refine List.Perm.eq_of_pairwise (fun a b _ _ => h.antisymm a b)
    (List.pairwise_mergeSort h.trans h.total _) (List.pairwise_mergeSort h.trans h.total _) ?_
  exact (List.mergeSort_perm _ _).trans (hperm.trans (List.mergeSort_perm _ _).symm)

end Text

/-! ## Trees -/

namespace FileTree

/-- Folders are told by the places of files. -/
theorem isFolder_iff_places {tree : FileTree} {place : Location} :
    tree.isFolder place = true ↔ (∃ folder ∈ tree.folders, place <+: folder) ∨
      ∃ other ∈ tree.places, place <+: other ∧ place ≠ other := by
  rw [isFolder_iff, places]
  simp only [List.mem_map, exists_exists_and_eq_and]

/-- The trees have files at the same places, the same folders, and the same working folder. -/
structure SameLayout (tree other : FileTree) : Prop where
  places : ∀ place, place ∈ tree.places ↔ place ∈ other.places
  folders : tree.folders = other.folders
  base : tree.base = other.base

namespace SameLayout

variable {tree other third : FileTree}

theorem refl (tree : FileTree) : SameLayout tree tree := ⟨fun _ => Iff.rfl, rfl, rfl⟩

theorem trans (h : SameLayout tree other) (h' : SameLayout other third) : SameLayout tree third :=
  ⟨fun place => (h.places place).trans (h'.places place), h.folders.trans h'.folders,
    h.base.trans h'.base⟩

/-- **Overwriting a file keeps the layout.** -/
theorem put {place : Location} (h : place ∈ tree.places) (content : Bytes) :
    SameLayout tree (tree.put place content) := by
  refine ⟨?_, (folders_put tree place content).symm, (base_put tree place content).symm⟩
  intro other
  rw [mem_places_put (admits_of_mem_places h)]
  constructor
  · exact .inr
  · rintro (rfl | hmem)
    · exact h
    · exact hmem

variable (h : SameLayout tree other)
include h

theorem isSome_content? (place : Location) :
    (tree.content? place).isSome = (other.content? place).isSome := by
  rw [Bool.eq_iff_iff, ← mem_places_iff, ← mem_places_iff, h.places]

theorem isFolder_eq : tree.isFolder = other.isFolder := by
  funext place
  rw [Bool.eq_iff_iff, isFolder_iff_places, isFolder_iff_places, h.folders]
  simp only [h.places]

theorem exists?_eq : tree.exists? = other.exists? := by
  funext place
  rw [exists?, exists?, h.isSome_content?, h.isFolder_eq]

theorem mem_iff (place : Location) :
    place ∈ tree.places ++ tree.folders ↔ place ∈ other.places ++ other.folders := by
  rw [List.mem_append, List.mem_append, h.places, h.folders]

theorem names_eq : tree.names = other.names := by
  funext place
  refine Text.isLinear_le.mergeSort_eraseDups ?_
  intro name
  simp only [List.mem_filterMap]
  constructor
  · rintro ⟨target, hmem, hname⟩
    exact ⟨target, (h.mem_iff target).1 hmem, hname⟩
  · rintro ⟨target, hmem, hname⟩
    exact ⟨target, (h.mem_iff target).2 hmem, hname⟩

end SameLayout

/-- The longest way is the longest of all ways. -/
theorem depth_le_iff {tree : FileTree} {bound : Nat} :
    tree.depth ≤ bound ↔ ∀ place ∈ tree.places ++ tree.folders, place.length ≤ bound := by
  have hfold : ∀ (ways : List Location) (start : Nat),
      (ways.map List.length).foldl max start ≤ bound ↔
        start ≤ bound ∧ ∀ place ∈ ways, place.length ≤ bound := by
    intro ways
    induction ways with
    | nil => simp
    | cons way rest ih =>
      intro start
      rw [List.map_cons, List.foldl_cons, ih, List.forall_mem_cons, Nat.max_le, and_assoc]
  rw [depth, hfold]
  simp [places]

namespace SameLayout

variable {tree other : FileTree} (h : SameLayout tree other)
include h

theorem depth_eq : tree.depth = other.depth := by
  have hle : ∀ bound, tree.depth ≤ bound ↔ other.depth ≤ bound := by
    intro bound
    rw [depth_le_iff, depth_le_iff]
    simp only [h.mem_iff]
  exact Nat.le_antisymm ((hle _).2 (Nat.le_refl _)) ((hle _).1 (Nat.le_refl _))

/-! ## Paths and patterns -/

theorem step_eq : tree.step = other.step := by
  funext place piece
  rw [step, step, h.isFolder_eq, h.exists?_eq]

theorem locate_eq : tree.locate = other.locate := by
  funext path
  simp only [locate, walk, start, h.step_eq, h.isFolder_eq, h.base]

theorem isFile_eq : tree.isFile = other.isFile := by
  funext path
  rw [isFile, isFile, h.locate_eq]
  cases other.locate path with
  | error error => rfl
  | ok place => exact h.isSome_content? place

theorem isFolderAt_eq : tree.isFolderAt = other.isFolderAt := by
  funext path
  rw [isFolderAt, isFolderAt, h.locate_eq, h.isFolder_eq]

theorem existsAt_eq : tree.existsAt = other.existsAt := by
  funext path
  rw [existsAt, existsAt, h.locate_eq]

theorem children_eq : Glob.children tree = Glob.children other := by
  funext path
  rw [Glob.children, Glob.children, h.locate_eq, h.isFolder_eq, h.names_eq]

theorem descendants_eq (levels : Nat) :
    Glob.descendants tree levels = Glob.descendants other levels := by
  induction levels with
  | zero => rfl
  | succ levels ih =>
    funext path
    rw [Glob.descendants, Glob.descendants, h.children_eq, ih]

theorem walk_eq : ∀ pieces : List Glob.Piece, Glob.walk tree pieces = Glob.walk other pieces
  | [] => rfl
  | .literal name :: rest => by
    funext path
    rw [Glob.walk, Glob.walk, walk_eq rest, h.isFolderAt_eq, h.existsAt_eq]
  | .wild tokens :: rest => by
    funext path
    rw [Glob.walk, Glob.walk, walk_eq rest, h.isFolderAt_eq, h.children_eq]
  | [.anyDepth] => by
    funext path
    rw [Glob.walk, Glob.walk, h.descendants_eq, h.depth_eq, h.isFolderAt_eq]
  | .anyDepth :: next :: rest => by
    funext path
    rw [Glob.walk, Glob.walk, walk_eq rest, h.descendants_eq, h.depth_eq]

theorem paths_eq : Glob.paths tree = Glob.paths other := by
  funext glob
  rw [Glob.paths, Glob.paths, h.walk_eq, h.isFolderAt_eq]

/-- **Names are looked up alike in trees of the same layout.** -/
theorem lookup_eq : tree.lookup = other.lookup := by
  rw [lookup, lookup, h.isFile_eq, h.paths_eq]

end SameLayout

end FileTree

/-! ## Sources -/

namespace Source

variable {lookup : Lookup}

theorem isFile_of_mem_filesNamed {pattern : String} {files : List Path}
    (h : filesNamed lookup pattern = .ok files) : ∀ path ∈ files, lookup.isFile path = true := by
  unfold filesNamed at h
  split at h
  · obtain rfl : [] = files := by simpa using h
    simp
  split at h
  · split at h
    · next paths _ =>
      obtain rfl : paths.filter lookup.isFile = files := by simpa using h
      intro path hmem
      exact (List.mem_filter.1 hmem).2
    · exact absurd h (by simp)
  split at h
  · next hfile =>
    obtain rfl : [Path.ofString pattern] = files := by simpa using h
    simpa using hfile
  · exact absurd h (by simp)

/-- What all patterns of a list stand for, one after the other. -/
theorem isFile_of_mem_mapM {patterns : List String} {files : List (List Path)}
    (h : patterns.mapM (filesNamed lookup) = .ok files) :
    ∀ path ∈ files.flatten, lookup.isFile path = true := by
  induction patterns generalizing files with
  | nil =>
    obtain rfl : [] = files := by simpa [pure, Except.pure] using h
    simp
  | cons pattern rest ih =>
    rw [List.mapM_cons, bind_eq_ok_iff] at h
    obtain ⟨named, hnamed, h⟩ := h
    rw [bind_eq_ok_iff] at h
    obtain ⟨others, hothers, h⟩ := h
    obtain rfl : named :: others = files := by simpa [pure, Except.pure] using h
    intro path hmem
    rw [List.flatten_cons, List.mem_append] at hmem
    rcases hmem with hmem | hmem
    · exact isFile_of_mem_filesNamed hnamed path hmem
    · exact ih hothers path hmem

theorem mem_of_mem_dedup {paths : List Path} : ∀ path ∈ dedup paths, path ∈ paths := by
  fun_induction dedup paths with
  | case1 first second rest hsame ih =>
    intro path hmem
    have hmem' := ih path hmem
    simp only [List.mem_cons] at hmem' ⊢
    tauto
  | case2 first second rest hsame ih =>
    intro path hmem
    rcases List.mem_cons.1 hmem with rfl | hmem
    · simp
    · exact List.mem_cons_of_mem _ (ih path hmem)
  | case3 paths _ => exact fun path hmem => hmem

/-- What patterns are resolved to once it is known what each of them stands for. -/
theorem resolve_of_mapM {patterns : List String} {lists : List (List Path)} (hne : patterns ≠ [])
    (h : patterns.mapM (filesNamed lookup) = .ok lists) :
    resolve lookup patterns =
      if lists.flatten.isEmpty && !patterns.contains standardInputPattern then .error .noFiles
      else .ok ((if patterns.contains standardInputPattern then [standardInput] else []) ++
        (dedup (lists.flatten.mergeSort Path.le)).map file) := by
  have hempty : patterns.isEmpty = false := by simpa using hne
  simp only [resolve, hempty, h, bind, Except.bind, pure, Except.pure, Bool.false_eq_true, if_false]
  cases patterns.contains standardInputPattern with
  | false => rfl
  | true => rfl

/-- **The sources that are files name regular files.** -/
theorem isFile_of_mem_resolve {patterns : List String} {sources : List Source}
    (h : resolve lookup patterns = .ok sources) {path : Path} (hmem : .file path ∈ sources) :
    lookup.isFile path = true := by
  by_cases hne : patterns = []
  · subst hne
    obtain rfl : [standardInput] = sources := Except.ok.inj h
    exact absurd hmem (by simp)
  cases hlists : patterns.mapM (filesNamed lookup) with
  | error cause => simp [resolve, hne, hlists, bind, Except.bind] at h
  | ok lists =>
    rw [resolve_of_mapM hne hlists] at h
    split at h
    · simp at h
    · obtain rfl := Except.ok.inj h
      have hsorted : path ∈ dedup (lists.flatten.mergeSort Path.le) := by
        rw [List.mem_append] at hmem
        rcases hmem with hstdin | hfiles
        · split at hstdin <;> simp at hstdin
        · simpa using hfiles
      have hflatten := mem_of_mem_dedup path hsorted
      rw [List.mem_mergeSort] at hflatten
      exact isFile_of_mem_mapM hlists path hflatten

end Source

end Semicolon
