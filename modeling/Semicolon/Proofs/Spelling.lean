import Semicolon.Proofs.Opening
import Semicolon.Proofs.Resolution

/-!
# Files that are named in several ways

Where a path leads depends on its components only: a `.` leads from a folder to itself, wherever it
stands.  The other direction fails.  The root counts as a component, so does a leading `.`, and so
does every `..`; so a file can be named by paths with different components, and each of them is a
source of its own.  Without dots, the paths that begin at the root are told apart by where they
lead, and so are those that begin in the working folder.

## Main definitions

* `Path.Plain`: a path without dots.

## Main statements

* `FileTree.walk_components`: a path is walked by its components.
* `FileTree.eq_of_components_eq`: paths with the same components lead to the same place.
* `FileTree.components_eq_of_plain`: paths without dots that begin and lead to the same places have
  the same components.
-/

namespace Semicolon

/-! ## Components and pieces -/

namespace Path

/-- The piece by which a component is walked.  A `.` leads nowhere. -/
def Component.piece? : Component → Option Text
  | root => none
  | here => none
  | up => some ['.', '.']
  | name text => some text

theorem Component.piece?_ofPiece (piece : Text) :
    (ofPiece piece).piece? = if piece = ['.'] then none else some piece := by
  unfold ofPiece
  split
  · rfl
  · split
    · next hup => simp [piece?, hup]
    · rfl

/-- A component without a piece is a `.`, if it was made of one. -/
theorem Component.ofPiece_eq_here_iff (piece : Text) : ofPiece piece = .here ↔ piece = ['.'] := by
  unfold ofPiece
  split
  · next hhere => simp [hhere]
  · next hhere => split <;> simp [hhere]

theorem filterMap_piece?_map_ofPiece (pieces : List Text) :
    ((pieces.map Component.ofPiece).filter (· != .here)).filterMap Component.piece? =
      pieces.filter (· ≠ ['.']) := by
  induction pieces with
  | nil => rfl
  | cons piece rest ih =>
    by_cases hhere : piece = ['.']
    · rw [List.map_cons, (Component.ofPiece_eq_here_iff piece).2 hhere]
      simpa [hhere] using ih
    · have hcomponent := mt (Component.ofPiece_eq_here_iff piece).1 hhere
      simpa [hhere, hcomponent, Component.piece?_ofPiece] using ih

/-- **The components of a path tell its pieces**, but for those that lead nowhere. -/
theorem filterMap_piece?_components (path : Path) :
    path.components.filterMap Component.piece? = path.pieces.filter (· ≠ ['.']) := by
  unfold components
  dsimp only
  split
  · rw [List.filterMap_cons]
    exact filterMap_piece?_map_ofPiece path.pieces
  · cases path.pieces with
    | nil => rfl
    | cons first rest =>
      dsimp only
      rw [List.filterMap_cons, Component.piece?_ofPiece, filterMap_piece?_map_ofPiece]
      by_cases hfirst : first = ['.'] <;> simp [hfirst]

/-- **Components are made of pieces**, but for the root of an absolute path. -/
theorem exists_components_eq (path : Path) : ∃ pieces : List Text,
    path.components = (if path.isAbsolute then [.root] else []) ++
      pieces.map Component.ofPiece := by
  unfold components
  dsimp only
  split
  · rw [List.filter_map]
    exact ⟨_, rfl⟩
  · split
    · exact ⟨[], rfl⟩
    · next first rest _ =>
      rw [List.filter_map]
      exact ⟨first :: rest.filter ((· != .here) ∘ Component.ofPiece), rfl⟩

theorem Component.ofPiece_ne_root (piece : Text) : ofPiece piece ≠ .root := by
  unfold ofPiece
  split
  · simp
  · split <;> simp

/-- A path is absolute if it has the root among its components. -/
theorem isAbsolute_iff {path : Path} : path.isAbsolute = true ↔ .root ∈ path.components := by
  obtain ⟨pieces, hcomponents⟩ := exists_components_eq path
  have hroot : .root ∉ pieces.map Component.ofPiece := by
    simp only [List.mem_map, not_exists, not_and]
    intro piece _
    exact Component.ofPiece_ne_root piece
  rw [hcomponents, List.mem_append]
  cases path.isAbsolute <;> simp [hroot]

theorem isAbsolute_eq_of_components_eq {path other : Path}
    (h : path.components = other.components) : path.isAbsolute = other.isAbsolute := by
  rw [Bool.eq_iff_iff, isAbsolute_iff, isAbsolute_iff, h]

/-- The path has neither a leading `.` nor a `..`. -/
def Plain (path : Path) : Prop :=
  ∀ component ∈ path.components, component ≠ .here ∧ component ≠ .up

theorem Component.ofPiece_eq_name {piece : Text} (hhere : ofPiece piece ≠ .here)
    (hup : ofPiece piece ≠ .up) :
    ofPiece piece = .name piece ∧ piece ≠ ['.'] ∧ piece ≠ ['.', '.'] := by
  unfold ofPiece at hhere hup ⊢
  split at hhere
  · exact absurd rfl hhere
  · next hone =>
    split at hhere
    · next htwo => simp [htwo] at hup
    · next htwo => exact ⟨by simp [hone, htwo], hone, htwo⟩

/-- A path without dots is made of names, after the root if it is absolute. -/
theorem Plain.exists_names {path : Path} (h : path.Plain) : ∃ names : List Text,
    path.components = (if path.isAbsolute then [.root] else []) ++ names.map .name ∧
      ∀ text ∈ names, text ≠ ['.'] ∧ text ≠ ['.', '.'] := by
  obtain ⟨pieces, hcomponents⟩ := exists_components_eq path
  have hpieces : ∀ piece ∈ pieces,
      Component.ofPiece piece = .name piece ∧ piece ≠ ['.'] ∧ piece ≠ ['.', '.'] := by
    intro piece hmem
    obtain ⟨hhere, hup⟩ := h (Component.ofPiece piece)
      (hcomponents ▸ List.mem_append_right _ (List.mem_map_of_mem hmem))
    exact Component.ofPiece_eq_name hhere hup
  refine ⟨pieces, ?_, fun piece hmem => (hpieces piece hmem).2⟩
  rw [hcomponents, List.map_congr_left fun piece hmem => (hpieces piece hmem).1]

end Path

/-! ## Places -/

namespace FileTree

variable {tree : FileTree}

/-- A `.` leads from a folder to itself. -/
theorem walk_filter {start place : Location} {pieces : List Text}
    (h : tree.walk start pieces = .ok place) :
    tree.walk start (pieces.filter (· ≠ ['.'])) = .ok place := by
  induction pieces generalizing start with
  | nil => exact h
  | cons piece rest ih =>
    obtain ⟨next, hstep, hrest⟩ := walk_cons.1 h
    by_cases hhere : piece = ['.']
    · obtain ⟨-, ⟨-, rfl⟩ | ⟨hup, -⟩ | ⟨hother, -⟩⟩ := step_eq_ok_iff.1 hstep
      · simpa [hhere] using ih hrest
      · simp [hhere] at hup
      · exact absurd hhere hother
    · have hkept : (piece :: rest).filter (· ≠ ['.']) = piece :: rest.filter (· ≠ ['.']) := by
        simp [hhere]
      rw [hkept]
      exact walk_cons.2 ⟨next, hstep, ih hrest⟩

/-- **A path is walked by its components.** -/
theorem walk_components {path : Path} {place : Location} (h : tree.locate path = .ok place) :
    tree.walk (tree.start path) (path.components.filterMap Path.Component.piece?) = .ok place := by
  obtain ⟨pieces, hpieces, hwalk, -⟩ := locate_eq_ok_iff.1 h
  obtain rfl := walkable_eq_ok hpieces
  rw [Path.filterMap_piece?_components]
  exact walk_filter hwalk

/-- **Paths with the same components lead to the same place**, if they lead anywhere. -/
theorem eq_of_components_eq {path other : Path} {place found : Location}
    (hsame : path.components = other.components) (h : tree.locate path = .ok place)
    (h' : tree.locate other = .ok found) : place = found := by
  have hstart : tree.start path = tree.start other := by
    rw [start, start, Path.isAbsolute_eq_of_components_eq hsame]
  have hwalk := walk_components h
  rw [hsame, hstart, walk_components h'] at hwalk
  exact (Except.ok.inj hwalk).symm

/-- Names lead from folder to folder. -/
theorem eq_append_of_walk_names {start place : Location} {names : List Text}
    (hnames : ∀ text ∈ names, text ≠ ['.'] ∧ text ≠ ['.', '.'])
    (h : tree.walk start names = .ok place) : place = start ++ names := by
  induction names generalizing start with
  | nil =>
    obtain rfl : start = place := by simpa [walk, pure, Except.pure] using h
    rw [List.append_nil]
  | cons text rest ih =>
    obtain ⟨⟨hhere, hup⟩, hrest⟩ := List.forall_mem_cons.1 hnames
    obtain ⟨next, hstep, hwalk⟩ := walk_cons.1 h
    obtain ⟨-, ⟨hdot, -⟩ | ⟨hdots, -⟩ | ⟨-, -, -, -, rfl⟩⟩ := step_eq_ok_iff.1 hstep
    · exact absurd hdot hhere
    · exact absurd hdots hup
    · rw [ih hrest hwalk, List.append_assoc, List.singleton_append]

/-- A path without dots leads from its start along its names. -/
theorem exists_names_of_plain {path : Path} {place : Location} (hplain : path.Plain)
    (h : tree.locate path = .ok place) : ∃ names : List Text,
      path.components = (if path.isAbsolute then [.root] else []) ++ names.map .name ∧
        place = tree.start path ++ names := by
  obtain ⟨names, hcomponents, hnames⟩ := hplain.exists_names
  have hpieces : path.components.filterMap Path.Component.piece? = names := by
    have hnamed : (names.map Path.Component.name).filterMap Path.Component.piece? = names := by
      simp [List.filterMap_map, Function.comp_def, Path.Component.piece?]
    rw [hcomponents]
    cases path.isAbsolute with
    | false => exact hnamed
    | true => exact hnamed
  have hwalk := walk_components h
  rw [hpieces] at hwalk
  exact ⟨names, hcomponents, eq_append_of_walk_names hnames hwalk⟩

/-- **A path without dots is told by where it begins and where it leads.** -/
theorem components_eq_of_plain {path other : Path} {place : Location} (hplain : path.Plain)
    (hplain' : other.Plain) (hstart : path.isAbsolute = other.isAbsolute)
    (h : tree.locate path = .ok place) (h' : tree.locate other = .ok place) :
    path.components = other.components := by
  obtain ⟨names, hcomponents, hplace⟩ := exists_names_of_plain hplain h
  obtain ⟨others, hcomponents', hplace'⟩ := exists_names_of_plain hplain' h'
  have hnames : names = others := by
    rw [hplace, start, start, hstart] at hplace'
    exact List.append_cancel_left hplace'
  rw [hcomponents, hcomponents', hstart, hnames]

end FileTree

/-! ## Sources -/

namespace Source

variable {tree : FileTree} {patterns : List String}

theorem Names.exists_locate {pattern : String} {path : Path}
    (h : Names tree.lookup pattern path) :
    ∃ place, tree.locate path = .ok place := by
  have hfile : tree.isFile path = true := by
    cases h with
    | literal _ _ hthere => exact hthere
    | matched _ _ _ hthere => exact hthere
  obtain ⟨place, hplace, -⟩ := FileTree.isFile_iff.1 hfile
  exact ⟨place, hplace⟩

/-- Every file that is named is among those that are collected. -/
theorem Collected.exists_locate_eq {paths : List Path} (h : Collected tree.lookup patterns paths)
    {pattern : String} {path : Path} (hpattern : pattern ∈ patterns)
    (hnames : Names tree.lookup pattern path) :
    ∃ other ∈ paths, other.components = path.components ∧
      tree.locate other = tree.locate path := by
  obtain ⟨other, hother, hsame⟩ := h.complete pattern hpattern path hnames
  rw [Path.same_iff] at hsame
  obtain ⟨_, _, hnames'⟩ := h.named other hother
  obtain ⟨place, hplace⟩ := hnames.exists_locate
  obtain ⟨found, hfound⟩ := hnames'.exists_locate
  refine ⟨other, hother, hsame, ?_⟩
  rw [hplace, hfound, FileTree.eq_of_components_eq hsame hfound hplace]

/-- **Files are collected once each exactly if none is named by different components.** -/
theorem Collected.nodup_map_locate_iff {paths : List Path}
    (h : Collected tree.lookup patterns paths) :
    (paths.map tree.locate).Nodup ↔
      ∀ first second, (∃ pattern ∈ patterns, Names tree.lookup pattern first) →
        (∃ pattern ∈ patterns, Names tree.lookup pattern second) →
        tree.locate first = tree.locate second → first.same second = true := by
  constructor
  · rintro hnodup first second ⟨pattern, hpattern, hfirst⟩ ⟨pattern', hpattern', hsecond⟩ hlocate
    obtain ⟨one, hone, hsame, hlocateone⟩ := h.exists_locate_eq hpattern hfirst
    obtain ⟨other, hother, hsame', hlocateother⟩ := h.exists_locate_eq hpattern' hsecond
    have hequal : one = other := by
      refine List.inj_on_of_nodup_map hnodup hone hother ?_
      rw [hlocateone, hlocateother, hlocate]
    rw [Path.same_iff, ← hsame, ← hsame', hequal]
  · intro hspelled
    rw [List.Nodup, List.pairwise_map]
    refine h.ascending.imp_of_mem ?_
    intro first second hfirst hsecond hprecedes hlocate
    have hsame := hspelled first second (h.named first hfirst) (h.named second hsecond) hlocate
    exact (Path.precedes_iff.1 hprecedes).2 (Path.same_iff.1 hsame)

theorem filterMap_path? (stdin : Bool) (paths : List Path) :
    ((if stdin then [standardInput] else []) ++ paths.map file).filterMap path? = paths := by
  have hfiles : (paths.map file).filterMap path? = paths := by
    simp [List.filterMap_map, Function.comp_def, path?]
  cases stdin with
  | false => exact hfiles
  | true => exact hfiles

/-- **A file is resolved once, unless it is named in different ways.**  Every file that is named or
matched is among the sources.  None is there twice exactly if no two of the paths that name it
differ in their components.  Where a file is there twice, its paths begin at different places, one
of them being absolute and the other not, or one of them has a leading `.` or a `..`: of the paths
without dots that begin at one place only one leads to the file. -/
theorem resolve_repeats_only_other_spellings (tree : FileTree) (patterns : List String)
    (sources : List Source) (h : resolve tree.lookup patterns = .ok sources) :
    let paths := sources.filterMap path?
    (∀ pattern ∈ patterns, ∀ path, Names tree.lookup pattern path →
      ∃ other ∈ paths, tree.locate other = tree.locate path) ∧
    ((paths.map tree.locate).Nodup ↔
      ∀ first second, (∃ pattern ∈ patterns, Names tree.lookup pattern first) →
        (∃ pattern ∈ patterns, Names tree.lookup pattern second) →
        tree.locate first = tree.locate second → first.same second = true) ∧
    ∀ first ∈ paths, ∀ second ∈ paths, tree.locate first = tree.locate second →
      first.isAbsolute = second.isAbsolute → first.Plain → second.Plain → first = second := by
  intro paths
  obtain ⟨-, collected, hcollected, -, hsources⟩ := collected_of_resolve h
  have hpaths : paths = collected := by
    simpa [paths, hsources] using
      filterMap_path? (patterns = [] ∨ standardInputPattern ∈ patterns) collected
  rw [hpaths]
  refine ⟨?_, hcollected.nodup_map_locate_iff, ?_⟩
  · intro pattern hpattern path hnames
    obtain ⟨other, hother, -, hlocate⟩ := hcollected.exists_locate_eq hpattern hnames
    exact ⟨other, hother, hlocate⟩
  · intro first hfirst second hsecond hlocate hstart hplain hplain'
    obtain ⟨_, _, hnames⟩ := hcollected.named first hfirst
    obtain ⟨place, hplace⟩ := hnames.exists_locate
    refine List.inj_on_of_nodup_map hcollected.nodup_map_components hfirst hsecond ?_
    exact FileTree.components_eq_of_plain hplain hplain' hstart hplace
      (hlocate.symm.trans hplace)

/-- A repeated separator does not make a file come twice. -/
theorem resolve_repeats_only_other_spellings_once :
    let tree : FileTree :=
      { files := [([['w'], ['s'], ['a']], [])], folders := [[['w']]], base := [['w']] }
    let patterns := ["s/a", "s//a"]
    resolve tree.lookup patterns = .ok [file (.ofString "s/a")] ∧
    ∀ first second, (∃ pattern ∈ patterns, Names tree.lookup pattern first) →
      (∃ pattern ∈ patterns, Names tree.lookup pattern second) →
      tree.locate first = tree.locate second → first.same second = true := by
  intro tree patterns
  have hnamed : patterns.mapM (filesNamed tree.lookup) =
      .ok (patterns.map fun name => [.ofString name]) := by decide +kernel
  have hresolve : resolve tree.lookup patterns = .ok [file (.ofString "s/a")] := by
    rw [resolve_of_mapM (by decide) hnamed, Path.mergeSort_eq_foldr]
    decide +kernel
  have honce := (resolve_repeats_only_other_spellings tree patterns _ hresolve).2.1
  exact ⟨hresolve, honce.1 (List.nodup_singleton _)⟩

/-- A file named with a leading `.` and without it comes twice: it is resolved to two sources at one
place, and it is written twice and explained twice. -/
theorem resolve_repeats_file_of_two_spellings :
    let world : World :=
      { tree := { files := [([['w'], ['a']], [120])], folders := [[['w']]], base := [['w']] } }
    let sources := [file (.ofString "./a"), file (.ofString "a")]
    resolve world.tree.lookup ["a", "./a"] = .ok sources ∧
    ¬ ((sources.filterMap path?).map world.tree.locate).Nodup ∧
    ((Command.process { inputs := ["a", "./a"] }).outcome world).2.stdout = "x;\nx;\n".toList ∧
    ((Command.explain ["a", "./a"] false).outcome world).2.stdout =
      "==> ./a <==\n".toList ++ explain false ['x'] ++
        "\n==> a <==\n".toList ++ explain false ['x'] := by
  intro world sources
  have hnamed : ["a", "./a"].mapM (filesNamed world.tree.lookup) =
      .ok (["a", "./a"].map fun name => [.ofString name]) := by decide +kernel
  have hresolve : resolve world.tree.lookup ["a", "./a"] = .ok sources := by
    rw [resolve_of_mapM (by decide) hnamed, Path.mergeSort_eq_foldr]
    decide +kernel
  have hsources : Run.exec (Run.sources ["a", "./a"]) world = (.ok sources, world) := by
    rw [Run.exec_sources, hresolve]
    rfl
  have hlocate : (sources.filterMap path?).map world.tree.locate =
      [.ok [['w'], ['a']], .ok [['w'], ['a']]] := by decide +kernel
  refine ⟨hresolve, ?_, ?_, ?_⟩
  · rw [hlocate]
    simp
  · have hready : Job.Ready { inputs := ["a", "./a"] } world.tree {} {} sources :=
      ⟨rfl, rfl, hresolve⟩
    rw [Command.world_outcome_process, hready.exec_run]
    decide +kernel
  · have hexplain : Run.exec (Command.explain ["a", "./a"] false).run world =
        Run.exec (Command.explainSources false true true sources) world :=
      Run.exec_bind_of_ok hsources
    rw [Command.outcome_eq, hexplain]
    decide +kernel

end Source

end Semicolon
