import Semicolon.Text.Basic

/-!
# UTF-8

`encode` writes a text in UTF-8.  `decode` reads it back, or says what is wrong with the bytes:
where the well-formed part ends, and how many bytes after it can begin no character.

A byte above `0x7f` announces a sequence of two to four bytes and limits its second byte; the
limits exclude overlong forms, surrogates and code points above `0x10ffff`.

## Main definitions

* `Utf8.encode`
* `Utf8.decode`
* `Utf8.Defect`: what is wrong with bytes that are not UTF-8.
-/

namespace Semicolon.Utf8

/-- The UTF-8 encoding of a text. -/
def encode (text : Text) : Bytes :=
  text.flatMap String.utf8EncodeChar

/-- What is wrong with bytes that are not the encoding of a text.  The index is the number of
well-formed bytes before the place. -/
inductive Defect
  /-- `length` bytes can begin no character. -/
  | invalid (length index : Nat)
  /-- The bytes end inside a character. -/
  | incomplete (index : Nat)
  deriving DecidableEq, Repr

/-- The number of well-formed bytes before the defect. -/
def Defect.index : Defect → Nat
  | invalid _ index => index
  | incomplete index => index

/-- The defect in words. -/
def Defect.message : Defect → String
  | invalid length index => s!"invalid utf-8 sequence of {length} bytes from index {index}"
  | incomplete index => s!"incomplete utf-8 byte sequence from index {index}"

/-- The continuation bytes. -/
def isContinuation (byte : UInt8) : Bool :=
  0x80 ≤ byte && byte ≤ 0xbf

/-- The second bytes that may follow `first` in a sequence of three. -/
def isSecondOfThree (first second : UInt8) : Bool :=
  if first = 0xe0 then 0xa0 ≤ second && second ≤ 0xbf
  else if first = 0xed then 0x80 ≤ second && second ≤ 0x9f
  else isContinuation second

/-- The second bytes that may follow `first` in a sequence of four. -/
def isSecondOfFour (first second : UInt8) : Bool :=
  if first = 0xf0 then 0x90 ≤ second && second ≤ 0xbf
  else if first = 0xf4 then 0x80 ≤ second && second ≤ 0x8f
  else isContinuation second

/-- The code point whose leading bits are `lead` and whose other bits, six in each, are in the
continuation bytes. -/
def assemble (lead : Nat) (continuation : List UInt8) : Char :=
  Char.ofNat (continuation.foldl (fun bits byte => bits * 64 + (byte.toNat - 0x80)) lead)

/-- Decodes what follows `index` well-formed bytes, whose characters are in `read`, the last
one first. -/
def decodeFrom (index : Nat) (read : Text) : Bytes → Except Defect Text
  | [] => .ok read.reverse
  | first :: rest =>
    if first < 0x80 then
      decodeFrom (index + 1) (Char.ofNat first.toNat :: read) rest
    else if 0xc2 ≤ first && first ≤ 0xdf then
      match rest with
      | [] => .error (.incomplete index)
      | second :: rest =>
        if isContinuation second then
          decodeFrom (index + 2) (assemble (first.toNat - 0xc0) [second] :: read) rest
        else .error (.invalid 1 index)
    else if 0xe0 ≤ first && first ≤ 0xef then
      match rest with
      | [] => .error (.incomplete index)
      | second :: rest =>
        if isSecondOfThree first second then
          match rest with
          | [] => .error (.incomplete index)
          | third :: rest =>
            if isContinuation third then
              decodeFrom (index + 3)
                (assemble (first.toNat - 0xe0) [second, third] :: read) rest
            else .error (.invalid 2 index)
        else .error (.invalid 1 index)
    else if 0xf0 ≤ first && first ≤ 0xf4 then
      match rest with
      | [] => .error (.incomplete index)
      | second :: rest =>
        if isSecondOfFour first second then
          match rest with
          | [] => .error (.incomplete index)
          | third :: rest =>
            if isContinuation third then
              match rest with
              | [] => .error (.incomplete index)
              | fourth :: rest =>
                if isContinuation fourth then
                  decodeFrom (index + 4)
                    (assemble (first.toNat - 0xf0) [second, third, fourth] :: read) rest
                else .error (.invalid 3 index)
            else .error (.invalid 2 index)
        else .error (.invalid 1 index)
    else .error (.invalid 1 index)

/-- The text whose encoding the bytes are. -/
def decode (bytes : Bytes) : Except Defect Text :=
  decodeFrom 0 [] bytes

end Semicolon.Utf8
