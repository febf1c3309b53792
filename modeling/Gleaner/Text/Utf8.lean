import Gleaner.Text.Basic

/-!
# UTF-8

Bytes are read as a sequence of chunks. A chunk is either one encoded character or a maximal run of
bytes that starts a character and cannot be completed: a byte that starts none, a start whose next
byte does not continue it, or a start that the end of the bytes cuts off. The reader carries the range
allowed for the next byte, which also excludes overlong forms, surrogates and code points that are too
large.

Main definitions: `chunks`, and from it `decode`, which refuses the first malformed chunk, and
`decodeLossy`, which puts the replacement character in the place of each. `encode` is the way back for
strings, and `Text.encode` for texts without surrogates; `Text.refused?` finds those that are in the way.
-/

namespace Gleaner.Utf8

/-- Raw bytes, as a file holds them. -/
abbrev Bytes := List UInt8

/-- Why bytes are no character. -/
inductive Reason where
  | invalidStart
  | invalidContinuation
  | unexpectedEnd
deriving DecidableEq, Repr

/-- The wording of a reason. -/
def Reason.message : Reason → String
  | .invalidStart => "invalid start byte"
  | .invalidContinuation => "invalid continuation byte"
  | .unexpectedEnd => "unexpected end of data"

/-- What the first byte of a character says: the bits it carries, how many bytes follow, and the
range of the next one. -/
structure Lead where
  bits : Nat
  following : Nat
  low : Nat := 0x80
  high : Nat := 0xbf
deriving DecidableEq, Repr

/-- Read a byte as the first of a character. -/
def lead? (b : Nat) : Option Lead :=
  if b < 0x80 then some { bits := b, following := 0 }
  else if b < 0xc2 then none
  else if b < 0xe0 then some { bits := b - 0xc0, following := 1 }
  else if b = 0xe0 then some { bits := 0, following := 2, low := 0xa0 }
  else if b = 0xed then some { bits := 0xd, following := 2, high := 0x9f }
  else if b < 0xf0 then some { bits := b - 0xe0, following := 2 }
  else if b = 0xf0 then some { bits := 0, following := 3, low := 0x90 }
  else if b < 0xf4 then some { bits := b - 0xf0, following := 3 }
  else if b = 0xf4 then some { bits := 4, following := 3, high := 0x8f }
  else none

/-- Read the bytes after the first, the next of them within `low` and `high`; gives the character or
the reason, and how many bytes were taken. -/
def continued (bits : Nat) : (following low high : Nat) → Bytes → Except Reason Char × Nat
  | 0, _, _, _ => (.ok (Char.ofNat bits), 0)
  | _ + 1, _, _, [] => (.error .unexpectedEnd, 0)
  | following + 1, low, high, b :: rest =>
    let n := b.toNat
    if low ≤ n && n ≤ high then
      let (result, taken) := continued (bits * 64 + (n - 0x80)) following 0x80 0xbf rest
      (result, taken + 1)
    else (.error .invalidContinuation, 0)

/-- The first character, or why there is none, and how many bytes after the first belong to it. -/
def first (b : UInt8) (rest : Bytes) : Except Reason Char × Nat :=
  match lead? b.toNat with
  | none => (.error .invalidStart, 0)
  | some l => continued l.bits l.following l.low l.high rest

/-- One character, or a run of bytes that is none. -/
structure Chunk where
  result : Except Reason Char
  bytes : Bytes

/-- Bytes as a sequence of chunks. -/
def chunks : Bytes → List Chunk
  | [] => []
  | b :: rest =>
    let (result, taken) := first b rest
    ⟨result, b :: rest.take taken⟩ :: chunks (rest.drop taken)
termination_by bytes => bytes.length
decreasing_by
  simp only [List.length_drop, List.length_cons]
  omega

/-- Bytes that are not UTF-8: the run that is no character, where it starts, and why. -/
structure Malformed where
  position : Nat
  bytes : Bytes
  reason : Reason
deriving DecidableEq, Repr

/-- The hexadecimal digits of a byte. -/
def byteText (b : UInt8) : String :=
  let digit (n : Nat) : Char := if n < 10 then Char.ofNat (0x30 + n) else Char.ofNat (0x57 + n)
  String.ofList [digit (b.toNat / 16), digit (b.toNat % 16)]

/-- The wording of a decoding failure. -/
def Malformed.message (m : Malformed) : String :=
  match m.bytes with
  | [b] =>
    s!"'utf-8' codec can't decode byte 0x{byteText b} in position {m.position}: {m.reason.message}"
  | bytes =>
    s!"'utf-8' codec can't decode bytes in position {m.position}-" ++
      s!"{m.position + bytes.length - 1}: {m.reason.message}"

/-- The characters of chunks that start at a position. -/
def decodeChunks (position : Nat) : List Chunk → Except Malformed (List Char)
  | [] => .ok []
  | chunk :: rest =>
    match chunk.result with
    | .error reason => .error ⟨position, chunk.bytes, reason⟩
    | .ok c => (decodeChunks (position + chunk.bytes.length) rest).map (c :: ·)

/-- The text of bytes that are UTF-8. -/
def decode (bytes : Bytes) : Except Malformed String :=
  (decodeChunks 0 (chunks bytes)).map String.ofList

/-- The character that stands for bytes that are none. -/
def replacement : Char := Char.ofNat 0xfffd

/-- The character of a chunk, or the replacement for it. -/
def Chunk.char (chunk : Chunk) : Char :=
  match chunk.result with
  | .ok c => c
  | .error _ => replacement

/-- The text of any bytes, with the replacement in the place of each malformed run. -/
def decodeLossy (bytes : Bytes) : List Char :=
  (chunks bytes).map Chunk.char

/-- The bytes of a string. -/
def encode (s : String) : Bytes :=
  s.toList.flatMap String.utf8EncodeChar

end Gleaner.Utf8

namespace Gleaner

open Gleaner.Utf8 (Bytes)

/-- A surrogate that has no bytes, where it stands, and how many more surrogates come right after it. -/
structure Unencodable where
  position : Nat
  surrogate : Fin 0x800
  more : Nat
deriving DecidableEq, Repr

/-- The hexadecimal digits of a surrogate. -/
def surrogateText (surrogate : Fin 0x800) : String :=
  let code := (CodePoint.surrogate surrogate).toNat
  Utf8.byteText (UInt8.ofNat (code / 0x100)) ++ Utf8.byteText (UInt8.ofNat (code % 0x100))

/-- The wording of an encoding failure. -/
def Unencodable.message (u : Unencodable) : String :=
  match u.more with
  | 0 =>
    s!"'utf-8' codec can't encode character '\\u{surrogateText u.surrogate}' " ++
      s!"in position {u.position}: surrogates not allowed"
  | more =>
    s!"'utf-8' codec can't encode characters in position {u.position}-{u.position + more}: " ++
      "surrogates not allowed"

/-- How many surrogates code points start with. -/
def surrogatesAtStart : List CodePoint → Nat
  | .surrogate _ :: rest => surrogatesAtStart rest + 1
  | _ => 0

/-- The first surrogate that is not allowed in code points from a position on. -/
def refusedFrom (allowed : Fin 0x800 → Bool) (position : Nat) : List CodePoint → Option Unencodable
  | [] => none
  | .char _ :: rest => refusedFrom allowed (position + 1) rest
  | .surrogate s :: rest =>
    if allowed s then refusedFrom allowed (position + 1) rest
    else some ⟨position, s, surrogatesAtStart rest⟩

namespace Text

/-- The first surrogate in a text that is not allowed. -/
def refused? (allowed : Fin 0x800 → Bool) (s : Text) : Option Unencodable :=
  refusedFrom allowed 0 s.toList

/-- The bytes of a text; surrogates have none. -/
def encode (s : Text) : Except Unencodable Bytes :=
  match s.refused? fun _ => false with
  | some e => .error e
  | none => .ok (Utf8.encode (String.ofList s.chars))

/-- The string of any text, with the replacement in the place of each surrogate. -/
def lossy (s : Text) : String :=
  String.ofList (s.toList.map fun c => c.char?.getD Utf8.replacement)

end Text

end Gleaner
