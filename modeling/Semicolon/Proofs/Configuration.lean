import Mathlib.Algebra.Ring.Int.Defs
import Semicolon.Proofs.Validation

/-!
# What a configuration file says

A table has six keys that count, each with a section, a type and a default.  Every field of the
configuration holds what is written for its own key, letter for letter, or its default if there is
nothing; no key has a say in the field of another, and what is not one of the six has no say at all.
Then the values are judged, the mode before the format and the format before the chunk size.

## Main definitions

* `Toml.Entries.at?`: the value of a key in a section.
* `Config.WellTyped`: every key that is given has its type.
* `Config.Describes`: every field holds what is given for it, or its default.
* `Text.SameButForCase`: two names are the same but for the case of ASCII letters.

## Main statements

* `Config.ofToml_eq_ok_iff`: a table with the right types gives the configuration it describes.
* `Config.WellTyped.existsUnique_describes`: there is one such configuration.
* `Config.error?_of_mode`, `Config.error?_of_format`, `Config.error?_of_chunkLines`: the first fault
  of a configuration.
-/

namespace Semicolon

/-! ## Names in any case -/

namespace Text

/-- `c` is the capital of the ASCII letter `d`. -/
def IsCapitalOf (c d : Char) : Prop :=
  'A'.toNat ≤ c.toNat ∧ c.toNat ≤ 'Z'.toNat ∧ d.toNat = c.toNat + 32

/-- The names are the same but for the case of ASCII letters. -/
def SameButForCase (name other : String) : Prop :=
  List.Forall₂ (fun c d => c = d ∨ IsCapitalOf c d ∨ IsCapitalOf d c) name.toList other.toList

theorem toNat_toLower (c : Char) :
    c.toLower.toNat =
      if 'A'.toNat ≤ c.toNat ∧ c.toNat ≤ 'Z'.toNat then c.toNat + 32 else c.toNat := by
  unfold Char.toLower
  split
  · next h =>
    have hcapital : 'A'.toNat ≤ c.toNat ∧ c.toNat ≤ 'Z'.toNat := h
    have hsmall : c.val.toNat ≤ 90 := h.2
    have hdistance : ('a'.val - 'A'.val : UInt32) = 32 := rfl
    rw [if_pos hcapital]
    change (c.val + ('a'.val - 'A'.val)).toNat = c.val.toNat + 32
    rw [hdistance, UInt32.toNat_add, Nat.mod_eq_of_lt]
    · rfl
    · change c.val.toNat + 32 < 2 ^ 32
      omega
  · next h =>
    have hother : ¬ ('A'.toNat ≤ c.toNat ∧ c.toNat ≤ 'Z'.toNat) := h
    rw [if_neg hother]

theorem toLower_eq_toLower_iff (c d : Char) :
    c.toLower = d.toLower ↔ c = d ∨ IsCapitalOf c d ∨ IsCapitalOf d c := by
  have hA : 'A'.toNat = 65 := rfl
  have hZ : 'Z'.toNat = 90 := rfl
  simp only [← Char.toNat_inj, toNat_toLower, IsCapitalOf, hA, hZ]
  split <;> split <;> omega

/-- **Names have the same lower case exactly if they are the same but for the case.** -/
theorem lowercase_eq_lowercase_iff (name other : String) :
    lowercase name = lowercase other ↔ SameButForCase name other := by
  rw [lowercase, lowercase, String.ofList_inj, ← List.forall₂_eq_eq_eq,
    List.forall₂_map_left_iff, List.forall₂_map_right_iff]
  simp only [toLower_eq_toLower_iff]
  rfl

/-- A name is looked for in any case among titles that are written in lower case. -/
theorem find?_title_eq_none_iff {α : Type} {all : List α} {title : α → String}
    (h : ∀ a ∈ all, lowercase (title a) = title a) (name : String) :
    all.find? (title · == lowercase name) = none ↔
      ¬ ∃ word ∈ all.map title, SameButForCase name word := by
  simp only [List.find?_eq_none, beq_iff_eq, not_exists, not_and, List.forall_mem_map]
  refine forall₂_congr fun a ha => not_congr ?_
  rw [← lowercase_eq_lowercase_iff, h a ha, eq_comm]

end Text

/-! ## Fields -/

/-- The value of a key in a section that is a table. -/
def Toml.Entries.at? (entries : Toml.Entries) (group key : String) : Option Toml.Value :=
  match entries.get? group.toList with
  | some (.table _ inner) => Toml.Entries.get? inner key.toList
  | _ => none

namespace Config

/-- The value is a string. -/
def IsString (value : Toml.Value) : Prop := ∃ text, value = .string text

/-- The value is a truth value. -/
def IsBoolean (value : Toml.Value) : Prop := ∃ truth, value = .boolean truth

/-- The value is an integer that is not negative and fits into a machine word. -/
def IsSize (value : Toml.Value) : Prop := ∃ n, value = .integer n ∧ 0 ≤ n ∧ n < 2 ^ 64

/-- What is given for a key has its type, if anything is given. -/
def Typed (IsOf : Toml.Value → Prop) (given : Option Toml.Value) : Prop :=
  ∀ value, given = some value → IsOf value

/-- A field holds what is given for its key, as it is written, or its default. -/
def Holds {α : Type} (write : α → Toml.Value) (default : α) (given : Option Toml.Value)
    (held : α) : Prop :=
  match given with
  | some value => value = write held
  | none => held = default

/-- A reader takes the values of a type and no others, and each of them is written in one way. -/
structure Reads {α : Type} (read : Toml.Value → Option α) (IsOf : Toml.Value → Prop)
    (write : α → Toml.Value) : Prop where
  eq_some_iff : ∀ value a, read value = some a ↔ IsOf value ∧ value = write a
  exists_write : ∀ value, IsOf value → ∃ a, value = write a
  write_injective : Function.Injective write

/-- A string as a value. -/
def ofString (text : String) : Toml.Value := .string text.toList

/-- A number as a value. -/
def ofNat (n : Nat) : Toml.Value := .integer n

theorem reads_asString : Reads asString IsString ofString where
  eq_some_iff := by
    intro value a
    cases value with
    | string text => simp [asString, IsString, ofString, ← String.toList_inj]
    | _ => simp [asString, IsString]
  exists_write := by
    rintro _ ⟨text, rfl⟩
    exact ⟨String.ofList text, by simp [ofString]⟩
  write_injective := by
    intro a b h
    simpa [ofString, String.toList_inj] using h

theorem reads_asBoolean : Reads asBoolean IsBoolean .boolean where
  eq_some_iff := by
    intro value a
    cases value with
    | boolean truth => simp [asBoolean, IsBoolean]
    | _ => simp [asBoolean, IsBoolean]
  exists_write := fun _ h => h
  write_injective := by
    intro a b h
    simpa using h

theorem reads_asSize : Reads asSize IsSize ofNat where
  eq_some_iff := by
    intro value a
    cases value with
    | integer n =>
      have hpow : ((Nat.pow 2 64 : Nat) : Int) = 2 ^ 64 := rfl
      simp only [asSize, IsSize, ofNat, hpow, Toml.Value.integer.injEq, Bool.and_eq_true,
        decide_eq_true_eq, Option.ite_none_right_eq_some, Option.some.injEq, exists_eq_left']
      omega
    | _ => simp [asSize, IsSize]
  exists_write := by
    rintro _ ⟨n, rfl, hnonneg, -⟩
    exact ⟨n.toNat, by rw [ofNat, Int.toNat_of_nonneg hnonneg]⟩
  write_injective := by
    intro a b h
    simpa [ofNat, Int.natCast_inj] using h

section Fields

variable {α : Type} {read : Toml.Value → Option α} {IsOf : Toml.Value → Prop}
  {write : α → Toml.Value}

/-- **A field can be read if what is given for it has its type**, and then it holds that. -/
theorem Reads.field_eq_ok_iff (h : Reads read IsOf write) {group key expected : String}
    {inner : Toml.Entries} {index : Nat} {default held : α} :
    field group (.keyed inner) index key expected read default = .ok held ↔
      Typed IsOf (inner.get? key.toList) ∧ Holds write default (inner.get? key.toList) held := by
  have hget : (Section.keyed inner).get? index key = inner.get? key.toList := rfl
  unfold field
  rw [hget]
  cases hgiven : inner.get? key.toList with
  | none => simp [Typed, Holds, eq_comm]
  | some value =>
    have htyped : Typed IsOf (some value) ↔ IsOf value := by simp [Typed]
    simp only [htyped, Holds, ← h.eq_some_iff]
    cases read value <;> simp

theorem Reads.existsUnique_holds (h : Reads read IsOf write) {given : Option Toml.Value}
    (default : α) (htyped : Typed IsOf given) : ∃! held, Holds write default given held := by
  cases given with
  | none => exact ⟨default, rfl, fun _ hheld => hheld⟩
  | some value =>
    obtain ⟨held, hheld⟩ := h.exists_write value (htyped value rfl)
    refine ⟨held, hheld, ?_⟩
    intro other hother
    exact h.write_injective (hother.symm.trans hheld)

end Fields

/-! ## Tables -/

/-- Every key that is given has its type. -/
@[mk_iff] structure WellTyped (entries : Toml.Entries) : Prop where
  executionMode : Typed IsString (entries.at? "processing" "execution_mode")
  defaultFormat : Typed IsString (entries.at? "output" "default_format")
  prettyJson : Typed IsBoolean (entries.at? "output" "pretty_json")
  parallelThresholdLines : Typed IsSize (entries.at? "performance" "parallel_threshold_lines")
  chunkLines : Typed IsSize (entries.at? "performance" "chunk_lines")
  workerThreads : Typed IsSize (entries.at? "performance" "worker_threads")

/-- Every field of the configuration holds what the table gives for its key, or its default. -/
@[mk_iff] structure Describes (entries : Toml.Entries) (config : Config) : Prop where
  executionMode : Holds ofString ({} : Config).executionMode
    (entries.at? "processing" "execution_mode") config.executionMode
  defaultFormat : Holds ofString ({} : Config).defaultFormat
    (entries.at? "output" "default_format") config.defaultFormat
  prettyJson : Holds .boolean ({} : Config).prettyJson
    (entries.at? "output" "pretty_json") config.prettyJson
  parallelThresholdLines : Holds ofNat ({} : Config).parallelThresholdLines
    (entries.at? "performance" "parallel_threshold_lines") config.parallelThresholdLines
  chunkLines : Holds ofNat ({} : Config).chunkLines
    (entries.at? "performance" "chunk_lines") config.chunkLines
  workerThreads : Holds ofNat ({} : Config).workerThreads
    (entries.at? "performance" "worker_threads") config.workerThreads

/-- The keys that count, each with its section. -/
def known : List (String × String) :=
  [("processing", "execution_mode"), ("output", "default_format"), ("output", "pretty_json"),
    ("performance", "parallel_threshold_lines"), ("performance", "chunk_lines"),
    ("performance", "worker_threads")]

/-- Every section that is given is a table. -/
def Sectioned (entries : Toml.Entries) : Prop :=
  ∀ group ∈ sections, ∀ value, entries.get? group.toList = some value →
    ∃ kind inner, value = .table kind inner

/-- Whether a value is a table. -/
def isTable : Toml.Value → Bool
  | .table _ _ => true
  | _ => false

theorem isTable_iff {value : Toml.Value} :
    isTable value = true ↔ ∃ kind inner, value = .table kind inner := by
  cases value <;> simp [isTable]

instance : DecidablePred Sectioned := fun entries =>
  decidable_of_iff
    (∀ group ∈ sections, ∀ value ∈ entries.get? group.toList, isTable value = true)
    (by simp only [Sectioned, isTable_iff, Option.mem_def])

variable {entries other : Toml.Entries} {config : Config}

/-- A section is read as a table, if it is not something else. -/
theorem Sectioned.exists_sectionOf (h : Sectioned entries) {group : String}
    (hgroup : group ∈ sections) :
    ∃ inner : Toml.Entries, sectionOf entries group = .ok (.keyed inner) ∧
      ∀ key : String, inner.get? key.toList = entries.at? group key := by
  unfold sectionOf Toml.Entries.at?
  cases hgiven : entries.get? group.toList with
  | none => exact ⟨[], rfl, fun _ => rfl⟩
  | some value =>
    obtain ⟨kind, inner, rfl⟩ := h group hgroup value hgiven
    exact ⟨inner, rfl, fun _ => rfl⟩

/-- **A table gives the configuration that it describes, if its types are right.** -/
theorem ofToml_eq_ok_iff (h : Sectioned entries) :
    ofToml entries = .ok config ↔ WellTyped entries ∧ Describes entries config := by
  obtain ⟨processing, hprocessing, hprocessingat⟩ :=
    h.exists_sectionOf (by decide : "processing" ∈ sections)
  obtain ⟨output, houtput, houtputat⟩ := h.exists_sectionOf (by decide : "output" ∈ sections)
  obtain ⟨performance, hperformance, hperformanceat⟩ :=
    h.exists_sectionOf (by decide : "performance" ∈ sections)
  unfold ofToml
  rw [hprocessing, houtput, hperformance]
  simp only [bind_eq_ok_iff, pure, Except.pure, Except.ok.injEq, exists_eq_left',
    reads_asString.field_eq_ok_iff, reads_asBoolean.field_eq_ok_iff, reads_asSize.field_eq_ok_iff,
    hprocessingat, houtputat, hperformanceat]
  constructor
  · rintro ⟨mode, ⟨tmode, hmode⟩, format, ⟨tformat, hformat⟩, pretty, ⟨tpretty, hpretty⟩,
      threshold, ⟨tthreshold, hthreshold⟩, chunk, ⟨tchunk, hchunk⟩, workers, ⟨tworkers, hworkers⟩,
      rfl⟩
    exact ⟨⟨tmode, tformat, tpretty, tthreshold, tchunk, tworkers⟩,
      ⟨hmode, hformat, hpretty, hthreshold, hchunk, hworkers⟩⟩
  · rintro ⟨typed, described⟩
    exact ⟨_, ⟨typed.executionMode, described.executionMode⟩,
      _, ⟨typed.defaultFormat, described.defaultFormat⟩,
      _, ⟨typed.prettyJson, described.prettyJson⟩,
      _, ⟨typed.parallelThresholdLines, described.parallelThresholdLines⟩,
      _, ⟨typed.chunkLines, described.chunkLines⟩,
      _, ⟨typed.workerThreads, described.workerThreads⟩, rfl⟩

/-- **A table with the right types describes one configuration.** -/
theorem WellTyped.existsUnique_describes (h : WellTyped entries) :
    ∃! config, Describes entries config := by
  obtain ⟨mode, hmode, umode⟩ :=
    reads_asString.existsUnique_holds ({} : Config).executionMode h.executionMode
  obtain ⟨format, hformat, uformat⟩ :=
    reads_asString.existsUnique_holds ({} : Config).defaultFormat h.defaultFormat
  obtain ⟨pretty, hpretty, upretty⟩ :=
    reads_asBoolean.existsUnique_holds ({} : Config).prettyJson h.prettyJson
  obtain ⟨threshold, hthreshold, uthreshold⟩ :=
    reads_asSize.existsUnique_holds ({} : Config).parallelThresholdLines h.parallelThresholdLines
  obtain ⟨chunk, hchunk, uchunk⟩ :=
    reads_asSize.existsUnique_holds ({} : Config).chunkLines h.chunkLines
  obtain ⟨workers, hworkers, uworkers⟩ :=
    reads_asSize.existsUnique_holds ({} : Config).workerThreads h.workerThreads
  refine ⟨⟨mode, format, pretty, threshold, chunk, workers⟩,
    ⟨hmode, hformat, hpretty, hthreshold, hchunk, hworkers⟩, ?_⟩
  rintro ⟨mode', format', pretty', threshold', chunk', workers'⟩ described
  rw [umode mode' described.executionMode, uformat format' described.defaultFormat,
    upretty pretty' described.prettyJson,
    uthreshold threshold' described.parallelThresholdLines, uchunk chunk' described.chunkLines,
    uworkers workers' described.workerThreads]

/-- The tables give the same for the keys that count. -/
def Agree (entries other : Toml.Entries) : Prop :=
  ∀ group key, (group, key) ∈ known → entries.at? group key = other.at? group key

/-- **Only the keys that count have a say.** -/
theorem Agree.describes_iff_and_wellTyped_iff (h : Agree entries other) :
    (WellTyped entries ↔ WellTyped other) ∧
      ∀ config, Describes entries config ↔ Describes other config := by
  have hmode := h "processing" "execution_mode" (by decide)
  have hformat := h "output" "default_format" (by decide)
  have hpretty := h "output" "pretty_json" (by decide)
  have hthreshold := h "performance" "parallel_threshold_lines" (by decide)
  have hchunk := h "performance" "chunk_lines" (by decide)
  have hworkers := h "performance" "worker_threads" (by decide)
  simp only [wellTyped_iff, describes_iff, hmode, hformat, hpretty, hthreshold, hchunk, hworkers,
    implies_true, and_self]

/-! ## Faults -/

/-- The mode is one of the three, but for the case. -/
def ModeKnown (config : Config) : Prop :=
  ∃ word ∈ ["sequential", "parallel", "adaptive"], Text.SameButForCase config.executionMode word

/-- The format is one of the two, but for the case. -/
def FormatKnown (config : Config) : Prop :=
  ∃ word ∈ ["text", "json"], Text.SameButForCase config.defaultFormat word

theorem not_modeKnown_iff :
    ¬ config.ModeKnown ↔ Mode.ofName? (Text.lowercase config.executionMode) = none := by
  have hlower : ∀ mode ∈ Mode.all, Text.lowercase mode.name = mode.name := by decide
  exact (Text.find?_title_eq_none_iff hlower _).symm

theorem not_formatKnown_iff :
    ¬ config.FormatKnown ↔ OutputFormat.ofName? (Text.lowercase config.defaultFormat) = none := by
  have hlower : ∀ format ∈ OutputFormat.all, Text.lowercase format.name = format.name := by decide
  exact (Text.find?_title_eq_none_iff hlower _).symm

theorem mode_of_not_known (h : ¬ config.ModeKnown) :
    config.mode = .error (.settings (.unknownMode (Text.lowercase config.executionMode))) := by
  simp [Config.mode, Mode.parse, not_modeKnown_iff.1 h, Except.mapError]

theorem exists_mode_of_known (h : config.ModeKnown) : ∃ mode, config.mode = .ok mode := by
  obtain ⟨mode, hmode⟩ := Option.ne_none_iff_exists'.1 (mt not_modeKnown_iff.2 (not_not_intro h))
  exact ⟨mode, by simp [Config.mode, Mode.parse, hmode, Except.mapError]⟩

theorem format_of_not_known (h : ¬ config.FormatKnown) :
    config.format = .error (.unknownFormat config.defaultFormat) := by
  simp [Config.format, not_formatKnown_iff.1 h]

theorem exists_format_of_known (h : config.FormatKnown) :
    ∃ format, config.format = .ok format := by
  obtain ⟨format, hformat⟩ :=
    Option.ne_none_iff_exists'.1 (mt not_formatKnown_iff.2 (not_not_intro h))
  exact ⟨format, by simp [Config.format, hformat]⟩

/-- **The mode is judged first.** -/
theorem error?_of_mode (h : ¬ config.ModeKnown) :
    config.error? =
      some (.settings (.unknownMode (Text.lowercase config.executionMode))) := by
  simp [error?, mode_of_not_known h, bind, Except.bind]

/-- **The format is judged after the mode.** -/
theorem error?_of_format (hmode : config.ModeKnown) (h : ¬ config.FormatKnown) :
    config.error? = some (.unknownFormat config.defaultFormat) := by
  obtain ⟨mode, hmode⟩ := exists_mode_of_known hmode
  simp [error?, hmode, format_of_not_known h, bind, Except.bind]

/-- **The chunk size is judged last.** -/
theorem error?_of_chunkLines (hmode : config.ModeKnown) (hformat : config.FormatKnown)
    (h : config.chunkLines = 0) : config.error? = some (.settings .zeroChunkLines) := by
  obtain ⟨mode, hmode⟩ := exists_mode_of_known hmode
  obtain ⟨format, hformat⟩ := exists_format_of_known hformat
  have hsettings : config.settings = .error (.settings .zeroChunkLines) := by
    simp [Config.settings, Settings.check, Settings.error?, hmode, h, Except.mapError, bind,
      Except.bind]
  simp [error?, hmode, hformat, hsettings, bind, Except.bind]

/-- **Nothing else can be wrong.** -/
theorem error?_eq_none_iff_known :
    config.error? = none ↔ config.ModeKnown ∧ config.FormatKnown ∧ config.chunkLines ≠ 0 := by
  constructor
  · intro hnone
    have hmode : config.ModeKnown := by
      by_contra hmode
      simp [error?_of_mode hmode] at hnone
    have hformat : config.FormatKnown := by
      by_contra hformat
      simp [error?_of_format hmode hformat] at hnone
    refine ⟨hmode, hformat, ?_⟩
    intro hchunk
    simp [error?_of_chunkLines hmode hformat hchunk] at hnone
  · rintro ⟨hmode, hformat, hchunk⟩
    obtain ⟨mode, hmode⟩ := exists_mode_of_known hmode
    exact error?_eq_none_iff.2 ⟨⟨mode, hmode⟩, exists_format_of_known hformat, _,
      settings_eq_ok_iff.2 ⟨mode, hmode, hchunk, rfl⟩⟩

/-! ## Texts -/

/-- The reader finds the table in the text, and every section of it is missing or a table. -/
structure IsTableOf (reader : TableReader) (text : Text) (entries : Toml.Entries) : Prop where
  table_eq : reader.table text = .ok entries
  sectioned : Sectioned entries

variable {reader : TableReader} {text : Text}

/-- Whether a text is a table with proper sections is found out by reading it. -/
theorem exists_isTableOf
    (h : ((reader.table text).toOption.any fun entries => Sectioned entries) = true) :
    ∃ entries, IsTableOf reader text entries := by
  cases htable : reader.table text with
  | error message => simp [htable, Except.toOption] at h
  | ok entries => exact ⟨entries, htable, by simpa [htable, Except.toOption] using h⟩

/-- A text is read as the configuration that its table describes, if the types are right. -/
theorem IsTableOf.read_eq_ok_iff (h : IsTableOf reader text entries) :
    read reader text = .ok config ↔ WellTyped entries ∧ Describes entries config := by
  rw [← ofToml_eq_ok_iff h.sectioned, read, h.table_eq]
  exact mapError_eq_ok_iff

/-- What was read is judged. -/
theorem parseBy_of_read (h : read reader text = .ok config) :
    parseBy reader text = match config.error? with
      | some error => .error error
      | none => .ok config := by
  rw [parseBy, h]
  rfl

theorem IsTableOf.parseBy_eq_ok_iff (h : IsTableOf reader text entries) :
    parseBy reader text = .ok config ↔ (WellTyped entries ∧ Describes entries config) ∧
      config.ModeKnown ∧ config.FormatKnown ∧ config.chunkLines ≠ 0 := by
  rw [Config.parseBy_eq_ok_iff, h.read_eq_ok_iff, error?_eq_none_iff_known]

theorem isSize_integer_iff {n : Int} (h : n < 2 ^ 63) : IsSize (.integer n) ↔ 0 ≤ n := by
  simp only [IsSize, Toml.Value.integer.injEq, exists_eq_left']
  omega

/-- **A configuration file says what its six keys say.**  It is read exactly if every key that is
given has its type, the mode and the format are known in any case, and the chunk size is not zero;
keys that are missing count with their defaults.  There is one configuration that holds, field by
field, what is given for the field as it is written, or its default, and this is the one that is
read.  Tables that agree on the six keys are read alike, whatever else they hold.  If the types are
right, the first fault is reported: the mode before the format, and the format before the chunk
size.  Every integer of a TOML document that is not negative is a size, as long as it has no more
than the 64 bits, sign included, that are promised for integers.  All this is so however texts are
read as tables; `parse` reads them as TOML. -/
theorem parse_describes_table (reader : TableReader) (text : Text) (entries : Toml.Entries)
    (h : IsTableOf reader text entries) :
    ((∃ config, parseBy reader text = .ok config) ↔ WellTyped entries ∧ ∃ config,
      Describes entries config ∧ config.ModeKnown ∧ config.FormatKnown ∧
        config.chunkLines ≠ 0) ∧
    (WellTyped entries → ∃! config, Describes entries config) ∧
    (∀ config, parseBy reader text = .ok config → Describes entries config) ∧
    (∀ other table, IsTableOf reader other table → Agree table entries →
      (∀ config, parseBy reader other = .ok config ↔ parseBy reader text = .ok config) ∧
      (WellTyped entries → parseBy reader other = parseBy reader text)) ∧
    (∀ config, WellTyped entries → Describes entries config →
      (¬ config.ModeKnown → parseBy reader text =
        .error (.settings (.unknownMode (Text.lowercase config.executionMode)))) ∧
      (config.ModeKnown → ¬ config.FormatKnown → parseBy reader text =
        .error (.unknownFormat config.defaultFormat)) ∧
      (config.ModeKnown → config.FormatKnown → config.chunkLines = 0 → parseBy reader text =
        .error (.settings .zeroChunkLines))) ∧
    ∀ n : Int, n < 2 ^ 63 → (IsSize (.integer n) ↔ 0 ≤ n) := by
  refine ⟨?_, WellTyped.existsUnique_describes, ?_, ?_, ?_, fun n => isSize_integer_iff⟩
  · simp only [h.parseBy_eq_ok_iff, and_assoc, exists_and_left]
  · intro config hparse
    exact (h.parseBy_eq_ok_iff.1 hparse).1.2
  · intro other table htable hagree
    obtain ⟨htyped, hdescribes⟩ := hagree.describes_iff_and_wellTyped_iff
    constructor
    · intro config
      rw [h.parseBy_eq_ok_iff, htable.parseBy_eq_ok_iff, htyped, hdescribes]
    · intro typed
      obtain ⟨config, described, -⟩ := typed.existsUnique_describes
      rw [parseBy_of_read (h.read_eq_ok_iff.2 ⟨typed, described⟩),
        parseBy_of_read (htable.read_eq_ok_iff.2 ⟨htyped.2 typed, (hdescribes config).2 described⟩)]
  · intro config typed described
    rw [parseBy_of_read (h.read_eq_ok_iff.2 ⟨typed, described⟩)]
    refine ⟨?_, ?_, ?_⟩
    · intro hmode
      rw [error?_of_mode hmode]
    · intro hmode hformat
      rw [error?_of_format hmode hformat]
    · intro hmode hformat hchunk
      rw [error?_of_chunkLines hmode hformat hchunk]

/-- A format in capitals is taken as it is written, and a key of no meaning is passed over.  Where
neither the mode nor the format is known, the mode is reported, although it comes later. -/
theorem parse_describes_table_of_two_texts :
    parse "output.default_format='JSON'\nx=''".toList = .ok { defaultFormat := "JSON" } ∧
    parse "output.default_format=''\nprocessing.execution_mode='Fast'".toList =
      .error (.settings (.unknownMode "fast")) := by
  constructor
  · obtain ⟨entries, htable⟩ : ∃ entries, IsTableOf toml
        "output.default_format='JSON'\nx=''".toList entries :=
      exists_isTableOf (by decide +kernel)
    have hread : read toml "output.default_format='JSON'\nx=''".toList =
        .ok { defaultFormat := "JSON" } := by decide +kernel
    obtain ⟨htyped, hdescribes⟩ := htable.read_eq_ok_iff.1 hread
    have hmode : ({ defaultFormat := "JSON" } : Config).ModeKnown :=
      ⟨"adaptive", by decide, (Text.lowercase_eq_lowercase_iff _ _).1 rfl⟩
    have hformat : ({ defaultFormat := "JSON" } : Config).FormatKnown :=
      ⟨"json", by decide, (Text.lowercase_eq_lowercase_iff _ _).1 (by decide)⟩
    obtain ⟨hparse, hunique, hdescribed, -⟩ := parse_describes_table toml _ entries htable
    obtain ⟨config, hconfig⟩ := hparse.2 ⟨htyped, _, hdescribes, hmode, hformat, by decide⟩
    rw [parse, hconfig, (hunique htyped).unique (hdescribed config hconfig) hdescribes]
  · obtain ⟨entries, htable⟩ : ∃ entries, IsTableOf toml
        "output.default_format=''\nprocessing.execution_mode='Fast'".toList entries :=
      exists_isTableOf (by decide +kernel)
    have hread : read toml "output.default_format=''\nprocessing.execution_mode='Fast'".toList =
        .ok { executionMode := "Fast", defaultFormat := "" } := by decide +kernel
    obtain ⟨htyped, hdescribes⟩ := htable.read_eq_ok_iff.1 hread
    have hmode : ¬ ({ executionMode := "Fast", defaultFormat := "" } : Config).ModeKnown :=
      not_modeKnown_iff.2 (by decide)
    obtain ⟨-, -, -, -, hfaults, -⟩ := parse_describes_table toml _ entries htable
    exact (hfaults _ htyped hdescribes).1 hmode

end Config

end Semicolon
