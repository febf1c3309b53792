import Gleaner.Text.Utf8

/-!
# Base64

Three bytes are written as four digits of six bits each. The reader is lenient: characters outside the
alphabet are passed over, and reading ends at the padding that completes a group. A group may not end
open, neither after one digit nor after two or three without padding.

Main definitions: `digit?`, `decode?` and `encode`.
-/

namespace Gleaner.Base64

open Gleaner.Utf8 (Bytes)

/-- The value of a digit. -/
def digit? (c : Char) : Option Nat :=
  if 'A' ≤ c ∧ c ≤ 'Z' then some (c.toNat - 'A'.toNat)
  else if 'a' ≤ c ∧ c ≤ 'z' then some (c.toNat - 'a'.toNat + 26)
  else if '0' ≤ c ∧ c ≤ '9' then some (c.toNat - '0'.toNat + 52)
  else if c = '+' then some 62
  else if c = '/' then some 63
  else none

/-- Read from inside a group: `place` digits of it were read, `left` holds the bits not yet given out,
and `pads` counts the padding since the last digit. -/
def decodeFrom (place left pads : Nat) : List Char → Option Bytes
  | [] => if place = 0 then some [] else none
  | c :: rest =>
    if c = '=' then
      if place ≥ 2 then
        if place + pads + 1 ≥ 4 then some [] else decodeFrom place left (pads + 1) rest
      else decodeFrom place left pads rest
    else
      match digit? c with
      | none => decodeFrom place left pads rest
      | some d =>
        match place with
        | 0 => decodeFrom 1 d 0 rest
        | 1 => (decodeFrom 2 (d % 16) 0 rest).map (UInt8.ofNat (left * 4 + d / 16) :: ·)
        | 2 => (decodeFrom 3 (d % 4) 0 rest).map (UInt8.ofNat (left * 16 + d / 4) :: ·)
        | _ => (decodeFrom 0 0 0 rest).map (UInt8.ofNat (left * 64 + d) :: ·)

/-- The bytes written in a text. -/
def decode? (text : List Char) : Option Bytes :=
  decodeFrom 0 0 0 text

/-- The digit of a value below 64. -/
def digit (n : Nat) : Char :=
  if n < 26 then Char.ofNat ('A'.toNat + n)
  else if n < 52 then Char.ofNat ('a'.toNat + n - 26)
  else if n < 62 then Char.ofNat ('0'.toNat + n - 52)
  else if n = 62 then '+'
  else '/'

/-- The text of bytes. -/
def encode : Bytes → List Char
  | [] => []
  | [a] => [digit (a.toNat / 4), digit (a.toNat % 4 * 16), '=', '=']
  | [a, b] =>
    [digit (a.toNat / 4), digit (a.toNat % 4 * 16 + b.toNat / 16), digit (b.toNat % 16 * 4), '=']
  | a :: b :: c :: rest =>
    digit (a.toNat / 4) :: digit (a.toNat % 4 * 16 + b.toNat / 16)
      :: digit (b.toNat % 16 * 4 + c.toNat / 64) :: digit (c.toNat % 64) :: encode rest

end Gleaner.Base64
