import Semicolon.Proofs.PathOrder

/-!
# What a list of patterns stands for

A pattern by itself names files or has a fault, and what is read for a list of patterns depends on
nothing else: the files that any of them names, each once up to its spelling and in the order of
paths, after standard input if a pattern asks for it.  The first fault is reported, and only where
there is none can it be reported that there are no files.

Sorting puts the spellings of one path side by side, so dropping neighbours leaves paths that
strictly precede one another.  Such a list is determined by its members up to spelling, which is why
neither the order of the patterns nor their repetition can be seen.

All this is so for whatever a file system answers, that is, for any `Lookup`; a file tree is one.

## Main definitions

* `Source.Names`: a pattern names a file.
* `Source.Fault`: what is wrong with a pattern by itself.
* `Source.Collected`: the files that patterns stand for, in order.

## Main statements

* `Source.collected_dedup_mergeSort`: what sorting and dropping neighbours gives.
* `Source.Collected.map_components_eq`: the files are determined up to spelling.
* `Source.resolve_of_faultless`, `Source.resolve_of_fault`: what patterns are resolved to.
-/

namespace Semicolon

/-! ## Results of a list -/

section Results

variable {ε α β : Type}

/-- A list fails at the first of its elements that does. -/
theorem mapM_eq_error {f : α → Except ε β} {before after : List α} {a : α} {error : ε}
    (hbefore : ∀ b ∈ before, ∃ c, f b = .ok c) (h : f a = .error error) :
    (before ++ a :: after).mapM f = .error error := by
  induction before with
  | nil => simp [h, bind, Except.bind]
  | cons b rest ih =>
    obtain ⟨⟨c, hc⟩, hrest⟩ := List.forall_mem_cons.1 hbefore
    simp [hc, ih hrest, bind, Except.bind]

/-- Where no element fails, there are the results of all of them. -/
theorem exists_mapM_eq_ok {f : α → Except ε (List β)} {list : List α}
    (h : ∀ a ∈ list, ∃ found, f a = .ok found) :
    ∃ lists, list.mapM f = .ok lists ∧
      ∀ b, b ∈ lists.flatten ↔ ∃ a ∈ list, ∃ found, f a = .ok found ∧ b ∈ found := by
  induction list with
  | nil => exact ⟨[], rfl, by simp⟩
  | cons a rest ih =>
    obtain ⟨⟨found, hfound⟩, hrest⟩ := List.forall_mem_cons.1 h
    obtain ⟨lists, hlists, hmem⟩ := ih hrest
    refine ⟨found :: lists, by simp [hfound, hlists, bind, Except.bind, pure, Except.pure], ?_⟩
    intro b
    simp [hmem, hfound]

end Results

namespace Source

variable {lookup : Lookup}

/-! ## Patterns by themselves -/

/-- The pattern names the regular file: it is the path of the file, or it matches it. -/
inductive Names (lookup : Lookup) : String → Path → Prop
  | literal {pattern : String} (hfile : pattern ≠ standardInputPattern)
    (hliteral : Glob.isPattern pattern.toList = false)
    (hthere : lookup.isFile (.ofString pattern) = true) : Names lookup pattern (.ofString pattern)
  | matched {pattern : String} {paths : List Path} {path : Path}
    (hpattern : Glob.isPattern pattern.toList = true)
    (hmatches : lookup.matches? pattern = some paths) (hmem : path ∈ paths)
    (hthere : lookup.isFile path = true) : Names lookup pattern path

/-- What is wrong with a pattern, whatever the others are. -/
inductive Fault (lookup : Lookup) : String → Cause → Prop
  | missing {pattern : String} (hfile : pattern ≠ standardInputPattern)
    (hliteral : Glob.isPattern pattern.toList = false)
    (hmissing : lookup.isFile (.ofString pattern) = false) :
    Fault lookup pattern (.fileNotFound pattern)
  | invalid {pattern : String} (hpattern : Glob.isPattern pattern.toList = true)
    (hinvalid : lookup.matches? pattern = none) : Fault lookup pattern (.invalidPattern pattern)

/-- No pattern has a fault of its own. -/
def Faultless (lookup : Lookup) (patterns : List String) : Prop :=
  ∀ pattern ∈ patterns, ∀ cause, ¬ Fault lookup pattern cause

theorem filesNamed_of_fault {pattern : String} {cause : Cause} (h : Fault lookup pattern cause) :
    filesNamed lookup pattern = .error cause := by
  cases h with
  | missing hfile hliteral hmissing => simp [filesNamed, hfile, hliteral, hmissing]
  | invalid hpattern hinvalid =>
    have hfile : pattern ≠ standardInputPattern := by
      rintro rfl
      exact absurd hpattern (by decide)
    simp [filesNamed, hfile, hpattern, hinvalid]

/-- **A pattern without a fault gives the files it names.** -/
theorem exists_filesNamed_eq_ok {pattern : String} (h : ∀ cause, ¬ Fault lookup pattern cause) :
    ∃ files, filesNamed lookup pattern = .ok files ∧
      ∀ path, path ∈ files ↔ Names lookup pattern path := by
  by_cases hfile : pattern = standardInputPattern
  · refine ⟨[], by simp [filesNamed, hfile], ?_⟩
    intro path
    simp only [List.not_mem_nil, false_iff]
    rintro (⟨hother, -, -⟩ | ⟨hpattern, -, -, -⟩)
    · exact hother hfile
    · rw [hfile] at hpattern
      exact absurd hpattern (by decide)
  cases hpattern : Glob.isPattern pattern.toList with
  | false =>
    have hthere : lookup.isFile (.ofString pattern) = true := by
      by_contra hmissing
      exact h _ (.missing hfile hpattern (by simpa using hmissing))
    refine ⟨[.ofString pattern], by simp [filesNamed, hfile, hpattern, hthere], ?_⟩
    intro path
    rw [List.mem_singleton]
    constructor
    · rintro rfl
      exact .literal hfile hpattern hthere
    · rintro (⟨-, -, -⟩ | ⟨hother, -, -, -⟩)
      · rfl
      · simp [hpattern] at hother
  | true =>
    cases hmatches : lookup.matches? pattern with
    | none => exact absurd (.invalid hpattern hmatches) (h _)
    | some paths =>
      refine ⟨paths.filter lookup.isFile, by simp [filesNamed, hfile, hpattern, hmatches], ?_⟩
      intro path
      rw [List.mem_filter]
      constructor
      · rintro ⟨hmem, hthere⟩
        exact .matched hpattern hmatches hmem hthere
      · rintro (⟨-, hother, -⟩ | ⟨-, hother, hmem, hthere⟩)
        · simp [hpattern] at hother
        · obtain rfl := Option.some.inj (hmatches.symm.trans hother)
          exact ⟨hmem, hthere⟩

/-- Of several patterns one is the first with a fault, or there is none. -/
theorem faultless_or_exists_fault (lookup : Lookup) (patterns : List String) :
    Faultless lookup patterns ∨ ∃ before pattern after cause,
      patterns = before ++ pattern :: after ∧
        Faultless lookup before ∧ Fault lookup pattern cause := by
  induction patterns with
  | nil => exact .inl (List.forall_mem_nil _)
  | cons pattern rest ih =>
    by_cases h : ∃ cause, Fault lookup pattern cause
    · obtain ⟨cause, hcause⟩ := h
      exact .inr ⟨[], pattern, rest, cause, rfl, List.forall_mem_nil _, hcause⟩
    · rw [not_exists] at h
      rcases ih with hrest | ⟨before, first, after, cause, rfl, hbefore, hcause⟩
      · exact .inl (List.forall_mem_cons.2 ⟨h, hrest⟩)
      · exact .inr ⟨pattern :: before, first, after, cause, rfl,
          List.forall_mem_cons.2 ⟨h, hbefore⟩, hcause⟩

/-- Patterns are faultless if the paths are those of files and the others can be read. -/
theorem faultless_iff {patterns : List String} :
    Faultless lookup patterns ↔
      (∀ pattern ∈ patterns, pattern ≠ standardInputPattern →
        Glob.isPattern pattern.toList = false → lookup.isFile (.ofString pattern) = true) ∧
      ∀ pattern ∈ patterns, Glob.isPattern pattern.toList = true →
        ∃ paths, lookup.matches? pattern = some paths := by
  constructor
  · intro h
    refine ⟨?_, ?_⟩
    · intro pattern hmem hfile hliteral
      by_contra hmissing
      exact h pattern hmem _ (.missing hfile hliteral (by simpa using hmissing))
    · intro pattern hmem hpattern
      rw [← Option.isSome_iff_exists, ← Option.ne_none_iff_isSome]
      intro hinvalid
      exact h pattern hmem _ (.invalid hpattern hinvalid)
  · rintro ⟨hliterals, hpatterns⟩ pattern hmem cause (⟨hfile, hliteral, hmissing⟩ |
      ⟨hpattern, hinvalid⟩)
    · simp [hliterals pattern hmem hfile hliteral] at hmissing
    · obtain ⟨paths, hmatches⟩ := hpatterns pattern hmem hpattern
      simp [hmatches] at hinvalid

/-! ## Collecting files -/

/-- The paths are what the patterns name, each once up to its spelling, in ascending order. -/
structure Collected (lookup : Lookup) (patterns : List String) (paths : List Path) : Prop where
  ascending : paths.Pairwise Path.Precedes
  named : ∀ path ∈ paths, ∃ pattern ∈ patterns, Names lookup pattern path
  complete : ∀ pattern ∈ patterns, ∀ path, Names lookup pattern path →
    ∃ other ∈ paths, other.same path = true

/-- Dropping neighbours leaves a spelling of every path. -/
theorem exists_same_mem_dedup {paths : List Path} :
    ∀ path ∈ paths, ∃ other ∈ dedup paths, other.same path = true := by
  fun_induction dedup paths with
  | case1 first second rest hsame ih =>
    intro path hmem
    by_cases hsecond : path = second
    · -- The path that is dropped has the components of the one before it.
      obtain ⟨other, hother, hfirst⟩ := ih first (by simp)
      rw [Path.same_iff] at hsame hfirst
      exact ⟨other, hother, Path.same_iff.2 (by rw [hfirst, hsame, hsecond])⟩
    · refine ih path ?_
      simp only [List.mem_cons, hsecond, false_or] at hmem ⊢
      exact hmem
  | case2 first second rest hsame ih =>
    intro path hmem
    rcases List.mem_cons.1 hmem with rfl | hmem
    · exact ⟨path, by simp, Path.same_iff.2 rfl⟩
    · obtain ⟨other, hother, hpath⟩ := ih path hmem
      exact ⟨other, List.mem_cons_of_mem _ hother, hpath⟩
  | case3 paths _ => exact fun path hmem => ⟨path, hmem, Path.same_iff.2 rfl⟩

theorem dedup_eq_nil_iff {paths : List Path} : dedup paths = [] ↔ paths = [] := by
  constructor
  · intro h
    rw [List.eq_nil_iff_forall_not_mem] at h ⊢
    intro path hmem
    obtain ⟨other, hother, -⟩ := exists_same_mem_dedup path hmem
    exact h other hother
  · rintro rfl
    rw [dedup]
    exact fun first second rest => by simp

/-- **Dropping neighbours leaves paths in strict order**, if they were sorted. -/
theorem pairwise_precedes_dedup {paths : List Path}
    (h : paths.Pairwise fun path other => path.le other = true) :
    (dedup paths).Pairwise Path.Precedes := by
  fun_induction dedup paths with
  | case1 first second rest hsame ih =>
    exact ih (h.sublist (List.Sublist.cons_cons first (List.sublist_cons_self second rest)))
  | case2 first second rest hsame ih =>
    obtain ⟨hfirst, hrest⟩ := List.pairwise_cons.1 h
    have hnext : first.Precedes second := by
      refine Path.precedes_iff.2 ⟨hfirst second (by simp), ?_⟩
      rwa [Ne, ← Path.same_iff]
    refine List.pairwise_cons.2 ⟨?_, ih hrest⟩
    intro path hmem
    rcases List.mem_cons.1 (mem_of_mem_dedup path hmem) with rfl | hmem
    · exact hnext
    · exact hnext.trans_le ((List.pairwise_cons.1 hrest).1 path hmem)
  | case3 paths hshort =>
    cases paths with
    | nil => exact .nil
    | cons first rest =>
      cases rest with
      | nil => exact List.pairwise_singleton _ _
      | cons second rest => exact absurd rfl (hshort first second rest)

theorem collected_dedup_mergeSort {patterns : List String} {files : List Path}
    (h : ∀ path, path ∈ files ↔ ∃ pattern ∈ patterns, Names lookup pattern path) :
    Collected lookup patterns (dedup (files.mergeSort Path.le)) where
  ascending := by
    apply pairwise_precedes_dedup
    refine List.pairwise_mergeSort ?_ Path.le_total files
    intro path other third
    exact Path.le_trans
  named := by
    intro path hmem
    have hsorted := mem_of_mem_dedup path hmem
    rw [List.mem_mergeSort] at hsorted
    exact (h path).1 hsorted
  complete := by
    intro pattern hpattern path hnames
    apply exists_same_mem_dedup
    rw [List.mem_mergeSort]
    exact (h path).2 ⟨pattern, hpattern, hnames⟩

namespace Collected

variable {patterns others : List String} {paths found : List Path}

/-- Paths that precede one another have different components. -/
theorem nodup_map_components (h : Collected lookup patterns paths) :
    (paths.map Path.components).Nodup := by
  rw [List.Nodup, List.pairwise_map]
  exact h.ascending.imp fun hprecedes => (Path.precedes_iff.1 hprecedes).2

theorem pairwise_map_key (h : Collected lookup patterns paths) :
    (paths.map Path.key).Pairwise fun key other =>
      Text.lexLe (Text.lexLe fun a b => decide (a ≤ b)) key other = true := by
  rw [List.pairwise_map]
  exact h.ascending.imp fun hprecedes => (Path.precedes_iff.1 hprecedes).1

/-- A file that one list of patterns names is named by another with the same patterns, maybe
spelled in another way. -/
theorem map_components_subset (h : Collected lookup patterns paths)
    (h' : Collected lookup others found) (hsubset : ∀ pattern ∈ patterns, pattern ∈ others) :
    ∀ components ∈ paths.map Path.components, components ∈ found.map Path.components := by
  intro components hmem
  obtain ⟨path, hpath, rfl⟩ := List.mem_map.1 hmem
  obtain ⟨pattern, hpattern, hnames⟩ := h.named path hpath
  obtain ⟨other, hother, hsame⟩ := h'.complete pattern (hsubset pattern hpattern) path hnames
  exact List.mem_map.2 ⟨other, hother, Path.same_iff.1 hsame⟩

/-- **What is collected is determined up to spelling**, by the set of the patterns. -/
theorem map_components_eq (h : Collected lookup patterns paths) (h' : Collected lookup others found)
    (hmem : ∀ pattern, pattern ∈ patterns ↔ pattern ∈ others) :
    paths.map Path.components = found.map Path.components := by
  have hperm : (paths.map Path.components).Perm (found.map Path.components) := by
    rw [List.perm_ext_iff_of_nodup h.nodup_map_components h'.nodup_map_components]
    intro components
    exact ⟨h.map_components_subset h' (fun pattern => (hmem pattern).1) components,
      h'.map_components_subset h (fun pattern => (hmem pattern).2) components⟩
  have hkeys : paths.map Path.key = found.map Path.key := by
    refine List.Perm.eq_of_pairwise (fun key other _ _ => Path.isLinear_keys.antisymm key other)
      h.pairwise_map_key h'.pairwise_map_key ?_
    rw [Path.map_key, Path.map_key]
    exact hperm.map _
  rw [Path.map_key, Path.map_key] at hkeys
  exact List.map_injective_iff.2 (List.map_injective_iff.2 Path.Component.key_injective) hkeys

end Collected

/-! ## Resolving -/

section Resolve

variable {patterns : List String}

theorem resolve_nil : resolve lookup [] = .ok [standardInput] := rfl

/-- **The first fault is reported.** -/
theorem resolve_of_fault {before after : List String} {pattern : String} {cause : Cause}
    (hbefore : Faultless lookup before) (h : Fault lookup pattern cause) :
    resolve lookup (before ++ pattern :: after) = .error cause := by
  have hnamed : (before ++ pattern :: after).mapM (filesNamed lookup) = .error cause := by
    refine mapM_eq_error ?_ (filesNamed_of_fault h)
    intro other hmem
    obtain ⟨files, hfiles, -⟩ := exists_filesNamed_eq_ok (hbefore other hmem)
    exact ⟨files, hfiles⟩
  have hempty : (before ++ pattern :: after).isEmpty = false := by simp
  simp [resolve, hempty, hnamed, bind, Except.bind]

/-- **Patterns without faults give the files they name**, after standard input if one of them asks
for it.  They fail only if they give nothing. -/
theorem resolve_of_faultless (hne : patterns ≠ []) (h : Faultless lookup patterns) :
    ∃ paths, Collected lookup patterns paths ∧
      resolve lookup patterns =
        if paths = [] ∧ standardInputPattern ∉ patterns then .error .noFiles
        else .ok ((if standardInputPattern ∈ patterns then [standardInput] else []) ++
          paths.map file) := by
  have hfound : ∀ pattern ∈ patterns, ∃ files, filesNamed lookup pattern = .ok files := by
    intro pattern hmem
    obtain ⟨files, hfiles, -⟩ := exists_filesNamed_eq_ok (h pattern hmem)
    exact ⟨files, hfiles⟩
  obtain ⟨lists, hlists, hmem⟩ := exists_mapM_eq_ok hfound
  have hnames : ∀ path, path ∈ lists.flatten ↔ ∃ pattern ∈ patterns, Names lookup pattern path := by
    intro path
    rw [hmem]
    constructor
    · rintro ⟨pattern, hpattern, files, hfiles, hpath⟩
      obtain ⟨others, hothers, hnamed⟩ := exists_filesNamed_eq_ok (h pattern hpattern)
      obtain rfl := Except.ok.inj (hfiles.symm.trans hothers)
      exact ⟨pattern, hpattern, (hnamed path).1 hpath⟩
    · rintro ⟨pattern, hpattern, hpath⟩
      obtain ⟨files, hfiles, hnamed⟩ := exists_filesNamed_eq_ok (h pattern hpattern)
      exact ⟨pattern, hpattern, files, hfiles, (hnamed path).2 hpath⟩
  have hcollected := collected_dedup_mergeSort hnames
  refine ⟨_, hcollected, ?_⟩
  have hnone : dedup (lists.flatten.mergeSort Path.le) = [] ↔ lists.flatten = [] := by
    rw [dedup_eq_nil_iff, ← List.length_eq_zero_iff, List.length_mergeSort,
      List.length_eq_zero_iff]
  rw [resolve_of_mapM hne hlists]
  by_cases hfiles : lists.flatten = [] <;>
    by_cases hstdin : standardInputPattern ∈ patterns <;> simp [hnone, hfiles, hstdin, dedup]

/-- Sources come from patterns without faults. -/
theorem collected_of_resolve {sources : List Source} (h : resolve lookup patterns = .ok sources) :
    Faultless lookup patterns ∧ ∃ paths, Collected lookup patterns paths ∧
      (patterns = [] ∨ standardInputPattern ∈ patterns ∨ paths ≠ []) ∧
      sources = (if patterns = [] ∨ standardInputPattern ∈ patterns then [standardInput] else []) ++
        paths.map file := by
  by_cases hne : patterns = []
  · subst hne
    obtain rfl : [standardInput] = sources := Except.ok.inj h
    exact ⟨List.forall_mem_nil _, [], ⟨.nil, by simp, by simp⟩, .inl rfl, rfl⟩
  rcases faultless_or_exists_fault lookup patterns with
    hfaultless | ⟨before, pattern, after, cause, rfl, hbefore, hfault⟩
  · obtain ⟨paths, hcollected, hresolve⟩ := resolve_of_faultless hne hfaultless
    rw [h] at hresolve
    split at hresolve
    · simp at hresolve
    · next hsome =>
      refine ⟨hfaultless, paths, hcollected, ?_, ?_⟩
      · tauto
      · simpa [hne] using hresolve
  · rw [resolve_of_fault hbefore hfault] at h
    simp at h

/-- **When patterns can be resolved.** -/
theorem exists_resolve_eq_ok_iff :
    (∃ sources, resolve lookup patterns = .ok sources) ↔
      patterns = [] ∨ Faultless lookup patterns ∧
        (standardInputPattern ∈ patterns ∨
          ∃ pattern ∈ patterns, ∃ path, Names lookup pattern path) := by
  constructor
  · rintro ⟨sources, h⟩
    obtain ⟨hfaultless, paths, hcollected, hsome, -⟩ := collected_of_resolve h
    rcases hsome with hnil | hstdin | hpaths
    · exact .inl hnil
    · exact .inr ⟨hfaultless, .inl hstdin⟩
    · obtain ⟨path, hpath⟩ := List.exists_mem_of_ne_nil paths hpaths
      obtain ⟨pattern, hpattern, hnames⟩ := hcollected.named path hpath
      exact .inr ⟨hfaultless, .inr ⟨pattern, hpattern, path, hnames⟩⟩
  · rintro (rfl | ⟨hfaultless, hsome⟩)
    · exact ⟨_, resolve_nil⟩
    · have hne : patterns ≠ [] := by
        rintro rfl
        simp at hsome
      obtain ⟨paths, hcollected, hresolve⟩ := resolve_of_faultless hne hfaultless
      rw [if_neg] at hresolve
      · exact ⟨_, hresolve⟩
      · rintro ⟨rfl, hstdin⟩
        obtain ⟨pattern, hpattern, path, hnames⟩ := hsome.resolve_left hstdin
        obtain ⟨other, hother, -⟩ := hcollected.complete pattern hpattern path hnames
        simp at hother

/-- **Why patterns cannot be resolved.** -/
theorem resolve_eq_error_iff {cause : Cause} :
    resolve lookup patterns = .error cause ↔
      (∃ before pattern after, patterns = before ++ pattern :: after ∧ Faultless lookup before ∧
        Fault lookup pattern cause) ∨
      cause = .noFiles ∧ patterns ≠ [] ∧ Faultless lookup patterns ∧
        standardInputPattern ∉ patterns ∧
        ∀ pattern ∈ patterns, ∀ path, ¬ Names lookup pattern path := by
  constructor
  · intro h
    rcases faultless_or_exists_fault lookup patterns with
      hfaultless | ⟨before, pattern, after, other, rfl, hbefore, hfault⟩
    · have hne : patterns ≠ [] := by
        rintro rfl
        simp [resolve_nil] at h
      obtain ⟨paths, hcollected, hresolve⟩ := resolve_of_faultless hne hfaultless
      rw [h] at hresolve
      split at hresolve
      · next hnothing =>
        refine .inr ⟨Except.error.inj hresolve, hne, hfaultless, hnothing.2, ?_⟩
        intro pattern hpattern path hnames
        obtain ⟨other, hother, -⟩ := hcollected.complete pattern hpattern path hnames
        simp [hnothing.1] at hother
      · simp at hresolve
    · rw [resolve_of_fault hbefore hfault] at h
      obtain rfl := Except.error.inj h
      exact .inl ⟨before, pattern, after, rfl, hbefore, hfault⟩
  · rintro (⟨before, pattern, after, rfl, hbefore, hfault⟩ |
      ⟨rfl, hne, hfaultless, hstdin, hnothing⟩)
    · exact resolve_of_fault hbefore hfault
    · obtain ⟨paths, hcollected, hresolve⟩ := resolve_of_faultless hne hfaultless
      have hpaths : paths = [] := by
        rw [List.eq_nil_iff_forall_not_mem]
        intro path hpath
        obtain ⟨pattern, hpattern, hnames⟩ := hcollected.named path hpath
        exact hnothing pattern hpattern path hnames
      rwa [if_pos ⟨hpaths, hstdin⟩] at hresolve

end Resolve

/-! ## All together -/

/-- What a source is, up to the spelling of its path. -/
def components? (source : Source) : Option (List Path.Component) :=
  source.path?.map Path.components

/-- **What a list of patterns is resolved to.**  It succeeds if the list is empty, or if every path
is that of a regular file, every pattern with a wildcard can be read, and there is something to
read.  Then standard input comes first, and once, exactly if the list is empty or asks for it; after
it come the files that are named or matched, in strictly ascending order.  Up to spelling, the
result does not change if patterns are moved or repeated.  If it fails, the first pattern with a
fault of its own is reported, and that there are no files only if there is no such pattern. -/
theorem resolve_meets_its_description (lookup : Lookup) (patterns : List String) :
    ((∃ sources, resolve lookup patterns = .ok sources) ↔
      patterns = [] ∨
        ((∀ pattern ∈ patterns, pattern ≠ standardInputPattern →
            Glob.isPattern pattern.toList = false → lookup.isFile (.ofString pattern) = true) ∧
          ∀ pattern ∈ patterns, Glob.isPattern pattern.toList = true →
            ∃ paths, lookup.matches? pattern = some paths) ∧
        (standardInputPattern ∈ patterns ∨
          ∃ pattern ∈ patterns, ∃ path, Names lookup pattern path)) ∧
    (∀ sources, resolve lookup patterns = .ok sources → ∃ paths : List Path,
      sources = (if patterns = [] ∨ standardInputPattern ∈ patterns then [standardInput] else []) ++
        paths.map file ∧
      paths.Pairwise Path.Precedes ∧
      (∀ path ∈ paths, ∃ pattern ∈ patterns, Names lookup pattern path) ∧
      ∀ pattern ∈ patterns, ∀ path, Names lookup pattern path →
        ∃ other ∈ paths, other.same path = true) ∧
    (∀ others : List String, (∀ pattern, pattern ∈ patterns ↔ pattern ∈ others) →
      ((∃ sources, resolve lookup patterns = .ok sources) ↔
        ∃ sources, resolve lookup others = .ok sources) ∧
      ∀ first second, resolve lookup patterns = .ok first → resolve lookup others = .ok second →
        first.map components? = second.map components?) ∧
    ∀ cause, resolve lookup patterns = .error cause ↔
      (∃ before pattern after, patterns = before ++ pattern :: after ∧
        (∀ other ∈ before, ∀ fault, ¬ Fault lookup other fault) ∧ Fault lookup pattern cause) ∨
      cause = .noFiles ∧ patterns ≠ [] ∧
        (∀ pattern ∈ patterns, ∀ fault, ¬ Fault lookup pattern fault) ∧
        standardInputPattern ∉ patterns ∧
        ∀ pattern ∈ patterns, ∀ path, ¬ Names lookup pattern path := by
  refine ⟨?_, ?_, ?_, fun _ => resolve_eq_error_iff⟩
  · rw [← faultless_iff]
    exact exists_resolve_eq_ok_iff
  · intro sources h
    obtain ⟨-, paths, hcollected, -, hsources⟩ := collected_of_resolve h
    exact ⟨paths, hsources, hcollected.ascending, hcollected.named, hcollected.complete⟩
  · intro others hmem
    have hnil : patterns = [] ↔ others = [] := by
      simp only [List.eq_nil_iff_forall_not_mem, hmem]
    refine ⟨?_, ?_⟩
    · simp only [exists_resolve_eq_ok_iff, Faultless, hnil, hmem]
    · intro first second hfirst hsecond
      obtain ⟨-, paths, hpaths, -, rfl⟩ := collected_of_resolve hfirst
      obtain ⟨-, found, hfound, -, rfl⟩ := collected_of_resolve hsecond
      have hfiles : ∀ list : List Path,
          (list.map file).map components? = (list.map Path.components).map some := by
        intro list
        simp [components?, path?, Function.comp_def]
      simp only [List.map_append, hfiles, hpaths.map_components_eq hfound hmem, hnil, hmem]

/-- In the working folder `/w`, a folder comes before a file whose name begins alike, and paths from
the root and from above come before both.  Of two spellings of one path the first is kept: which one
that is depends on the order of the patterns, and nothing else does. -/
theorem resolve_meets_its_description_moved :
    let tree : FileTree :=
      { files := [([['w'], ['a', '.', 'b']], []), ([['w'], ['a'], ['b']], [])]
        folders := [[['w']]]
        base := [['w']] }
    let first := ["a.b", "-", "a/?", "a//b", "/w/a/*", "../w/a.b"]
    let second := ["../w/a.b", "a//b", "a.b", "/w/a/*", "a/?", "-", "a.b"]
    let sources := fun name : String => standardInput ::
      ["/w/a/b", "../w/a.b", name, "a.b"].map fun name => file (.ofString name)
    resolve tree.lookup first = .ok (sources "a/b") ∧
    resolve tree.lookup second = .ok (sources "a//b") ∧
    (∀ pattern, pattern ∈ first ↔ pattern ∈ second) ∧
    (sources "a/b").map components? = (sources "a//b").map components? := by
  intro tree first second sources
  have hfirst : resolve tree.lookup first = .ok (sources "a/b") := by
    have hnamed : first.mapM (filesNamed tree.lookup) =
        .ok [[.ofString "a.b"], [], [.ofString "a/b"], [.ofString "a//b"], [.ofString "/w/a/b"],
          [.ofString "../w/a.b"]] := by
      decide +kernel
    rw [resolve_of_mapM (by decide) hnamed, Path.mergeSort_eq_foldr]
    decide +kernel
  have hsecond : resolve tree.lookup second = .ok (sources "a//b") := by
    have hnamed : second.mapM (filesNamed tree.lookup) =
        .ok [[.ofString "../w/a.b"], [.ofString "a//b"], [.ofString "a.b"], [.ofString "/w/a/b"],
          [.ofString "a/b"], [], [.ofString "a.b"]] := by
      decide +kernel
    rw [resolve_of_mapM (by decide) hnamed, Path.mergeSort_eq_foldr]
    decide +kernel
  have hsubset : (∀ pattern ∈ first, pattern ∈ second) ∧ ∀ pattern ∈ second, pattern ∈ first := by
    decide
  have hmem : ∀ pattern, pattern ∈ first ↔ pattern ∈ second := by
    intro pattern
    exact ⟨hsubset.1 pattern, hsubset.2 pattern⟩
  exact ⟨hfirst, hsecond, hmem,
    ((resolve_meets_its_description tree.lookup first).2.2.1 second hmem).2 _ _ hfirst hsecond⟩

end Source

end Semicolon
