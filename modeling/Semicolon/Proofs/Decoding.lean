import Semicolon.Input
import Semicolon.Proofs.Diagnosis

/-!
# Bytes are decoded alike wherever they come from

A stream delivers its bytes in chunks, which may end inside of a character.  They are collected
before anything is decoded, so neither the text nor the diagnosis depends on where the chunks end,
and a stream that breaks off is never decoded at all.

What is said of bytes that are no text is the same in all cases but for the leading words: the kind
of the defect, and in decimal the number of bytes before it.

## Main definitions

* `Utf8.Defect.kind`: the kind of a defect in words.
* `Input.collect`: reads a stream to its end, chunk after chunk.
* `Input.Carries`: the inputs that hold the same bytes.

## Main statements

* `Utf8.Defect.message_eq`: the words for a defect name its place.
* `Input.collect_eq`: what is collected.
* `Input.Carries.read_eq`: inputs with the same bytes are read alike.
-/

namespace Semicolon

/-! ## Words -/

namespace Utf8

/-- The number in decimal. -/
def decimal (number : Nat) : String :=
  String.ofList (Nat.toDigits 10 number)

/-- The kind of the defect in words, wherever it is. -/
def Defect.kind : Defect → String
  | invalid length _ => "invalid utf-8 sequence of " ++ decimal length ++ " bytes"
  | incomplete _ => "incomplete utf-8 byte sequence"

/-- **The words for a defect name its place**: they end with its index in decimal. -/
theorem Defect.message_eq (defect : Defect) :
    defect.message = defect.kind ++ " from index " ++ decimal defect.index := by
  cases defect with
  | invalid length index =>
    change "invalid utf-8 sequence of " ++ decimal length ++ " bytes from index " ++
      decimal index = "invalid utf-8 sequence of " ++ decimal length ++ " bytes" ++
      " from index " ++ decimal index
    simp [String.append_assoc]
  | incomplete index => rfl

end Utf8

/-- The words before the diagnosis of bytes that come from there. -/
def Origin.lead : Origin → String
  | memory => "Invalid UTF-8: "
  | file path => "Invalid UTF-8 in " ++ InputError.quoted path ++ ": "
  | stream => "Invalid UTF-8 from stream: "

/-- **Only the leading words depend on the origin.** -/
theorem InputError.details_notUtf8 (origin : Origin) (defect : Utf8.Defect) :
    (notUtf8 origin defect).details = origin.lead ++ defect.message := by
  cases origin with
  | memory =>
    change "Invalid UTF-8: " ++ toString defect.message = _
    rfl
  | file path =>
    change "Invalid UTF-8 in " ++ toString (quoted path) ++ ": " ++ toString defect.message = _
    rfl
  | stream =>
    change "Invalid UTF-8 from stream: " ++ toString defect.message = _
    rfl

namespace Input

/-! ## Streams -/

/-- Reads a stream to its end, after what is in the buffer.  A delivery of nothing is an end. -/
def collect (buffer : Bytes) (failure? : Option String) : List Bytes → Except String Bytes
  | [] =>
    match failure? with
    | none => .ok buffer
    | some reason => .error reason
  | [] :: _ => .ok buffer
  | (byte :: more) :: rest => collect (buffer ++ byte :: more) failure? rest

/-- **All bytes are collected in order**, unless the stream breaks off. -/
theorem collect_eq {chunks : List Bytes} (h : ∀ chunk ∈ chunks, chunk ≠ []) (buffer : Bytes)
    (failure? : Option String) :
    collect buffer failure? chunks =
      match failure? with
      | none => .ok (buffer ++ chunks.flatten)
      | some reason => .error reason := by
  induction chunks generalizing buffer with
  | nil => cases failure? <;> simp [collect]
  | cons chunk rest ih =>
    obtain ⟨hchunk, hrest⟩ := List.forall_mem_cons.1 h
    cases chunk with
    | nil => exact absurd rfl hchunk
    | cons byte more =>
      rw [collect, ih hrest, List.flatten_cons, List.append_assoc]

/-- A stream is read by collecting its chunks and decoding what has come together. -/
theorem read_stream {chunks : List Bytes} (h : ∀ chunk ∈ chunks, chunk ≠ []) (tree : FileTree)
    (failure? : Option String) :
    read tree (.stream chunks failure?) =
      match collect [] failure? chunks with
      | .ok content => decode .stream content
      | .error reason => .error (.brokenStream reason) := by
  rw [collect_eq h]
  cases failure? <;> rfl

/-! ## Inputs with the same bytes -/

/-- The input holds the bytes: in memory, in a file, or cut into chunks. -/
inductive Carries (tree : FileTree) (bytes : Bytes) : Input → Origin → Prop
  | memory : Carries tree bytes (.bytes bytes) .memory
  | file {path : Path} (h : tree.read path = .ok bytes) :
    Carries tree bytes (.file path) (.file path)
  /-- Every chunk has bytes, since a delivery of nothing is an end. -/
  | stream {chunks : List Bytes} (hchunks : ∀ chunk ∈ chunks, chunk ≠ [])
    (hbytes : chunks.flatten = bytes) : Carries tree bytes (.stream chunks none) .stream

variable {tree : FileTree} {bytes : Bytes} {input : Input} {origin : Origin}

/-- **Inputs with the same bytes are read alike.** -/
theorem Carries.read_eq (h : Carries tree bytes input origin) :
    input.read tree = decode origin bytes := by
  cases h with
  | memory => rfl
  | file h => simp only [read, h]
  | stream hchunks hbytes => rw [read_stream hchunks, collect_eq hchunks, List.nil_append, hbytes]

theorem decode_eq_ok_iff {text : Text} :
    decode origin bytes = .ok text ↔ bytes = Utf8.encode text := by
  rw [← Utf8.decode_eq_ok_iff, decode]
  cases Utf8.decode bytes <;> simp [Except.mapError]

theorem decode_eq_error_iff {error : InputError} :
    decode origin bytes = .error error ↔
      ∃ defect, Utf8.Diagnoses bytes defect ∧ error = .notUtf8 origin defect := by
  simp only [← Utf8.decode_eq_error_iff, decode]
  cases Utf8.decode bytes <;> simp [Except.mapError, eq_comm]

/-- **Bytes are decoded alike wherever they come from.**  Of inputs with the same bytes, in memory,
in a file or in the chunks of a stream, each gives a text if and only if the bytes are its encoding.
If they are the encoding of none, all inputs are refused with one diagnosis, which is that of the
bytes and whose index is the length of their longest well-formed prefix.  It is given in words,
which end with that index in decimal; only the leading words say where the bytes come from.  An
encoded text is decoded to itself.  A stream that breaks off is an I/O error, whatever it has
delivered. -/
theorem bytes_read_alike (tree : FileTree) :
    (∀ bytes input origin, Carries tree bytes input origin →
      (∀ text, input.read tree = .ok text ↔ bytes = Utf8.encode text) ∧
      ∀ error, input.read tree = .error error ↔
        ∃ defect, Utf8.Diagnoses bytes defect ∧ error = .notUtf8 origin defect) ∧
    (∀ bytes, (∀ text, bytes ≠ Utf8.encode text) → ∃ defect,
      IsGreatest (Utf8.wellFormedLengths bytes) defect.index ∧
      ∀ input origin, Carries tree bytes input origin →
        input.read tree = .error (.notUtf8 origin defect) ∧
        (InputError.notUtf8 origin defect).category = .encoding ∧
        (InputError.notUtf8 origin defect).details = origin.lead ++ defect.message ∧
        (InputError.notUtf8 origin defect).details =
          origin.lead ++ (defect.kind ++ " from index " ++ Utf8.decimal defect.index)) ∧
    (∀ origin text, decode origin (Utf8.encode text) = .ok text) ∧
    ∀ chunks failure?, (∀ chunk ∈ chunks, chunk ≠ []) →
      (Input.stream chunks failure?).read tree =
        (match collect [] failure? chunks with
        | .ok content => decode .stream content
        | .error reason => .error (.brokenStream reason)) ∧
      ∀ reason, failure? = some reason →
        (Input.stream chunks failure?).read tree = .error (.brokenStream reason) ∧
        (InputError.brokenStream reason).category = .io := by
  refine ⟨?_, ?_, fun _ _ => decode_eq_ok_iff.2 rfl, ?_⟩
  · intro bytes input origin hcarries
    rw [hcarries.read_eq]
    exact ⟨fun _ => decode_eq_ok_iff, fun _ => decode_eq_error_iff⟩
  · intro bytes hbytes
    cases hdecode : Utf8.decode bytes with
    | ok text => exact absurd (Utf8.decode_eq_ok_iff.1 hdecode) (hbytes text)
    | error defect =>
      have hdefect := Utf8.decode_eq_error_iff.1 hdecode
      refine ⟨defect, hdefect.isGreatest_index, ?_⟩
      intro input origin hcarries
      have hdetails := InputError.details_notUtf8 origin defect
      refine ⟨?_, rfl, hdetails, ?_⟩
      · rw [hcarries.read_eq]
        exact decode_eq_error_iff.2 ⟨defect, hdefect, rfl⟩
      · rw [hdetails, defect.message_eq]
  · intro chunks failure? hchunks
    refine ⟨read_stream hchunks tree failure?, ?_⟩
    rintro reason rfl
    exact ⟨by rw [read_stream hchunks, collect_eq hchunks], rfl⟩

/-- A stream is cut inside of a character whose third byte is wrong.  The file with the same bytes
has the same defect, and its error names the same place. -/
theorem bytes_read_alike_cut_inside :
    let content : Bytes := [0x61, 0xe2, 0x82, 0x28]
    let tree : FileTree := { files := [([['w'], ['a']], content)], folders := [[], [['w']]],
                             base := [['w']] }
    (Input.stream [[0x61, 0xe2], [0x82], [0x28]] none).read tree =
      .error (.notUtf8 .stream (.invalid 2 1)) ∧
    (Input.file ⟨"/w/a".toList⟩).read tree =
      .error (.notUtf8 (.file ⟨"/w/a".toList⟩) (.invalid 2 1)) ∧
    (InputError.notUtf8 (.file ⟨"/w/a".toList⟩) (.invalid 2 1)).details =
      "Invalid UTF-8 in \"/w/a\": invalid utf-8 sequence of 2 bytes from index 1" ∧
    (Input.stream [[0x61, 0xe2], [0x82], [0x28]] (some "gone")).read tree =
      .error (.brokenStream "gone") := by
  intro content tree
  have hall := bytes_read_alike tree
  have hchunks : ∀ chunk ∈ [[0x61, 0xe2], [0x82], [(0x28 : UInt8)]], chunk ≠ [] := by decide
  obtain ⟨defect, hdefect, hmemory⟩ := ((hall.1 _ _ _ .memory).2 _).1
    (rfl : (Input.bytes content).read tree = .error (.notUtf8 .memory (.invalid 2 1)))
  obtain ⟨-, rfl⟩ := InputError.notUtf8.inj hmemory
  refine ⟨?_, ?_, ?_, ?_⟩
  · exact ((hall.1 _ _ _ (.stream hchunks rfl)).2 _).2 ⟨_, hdefect, rfl⟩
  · exact ((hall.1 _ _ _ (.file rfl)).2 _).2 ⟨_, hdefect, rfl⟩
  · decide +kernel
  · exact ((hall.2.2.2 _ _ hchunks).2 _ rfl).1

end Input

end Semicolon
