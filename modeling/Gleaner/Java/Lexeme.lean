import Gleaner.Java.Identifier
import Gleaner.Java.Lexeme.Quote
import Gleaner.Syntax.Node
import Gleaner.Syntax.Token

/-!
# Lexemes of Java source

Source is cut into blanks, comments and tokens, each as long as it can be. Tokens go to the grammar;
comments are kept with their ranges, since they become nodes of the tree afterwards. Bytes that are not
UTF-8 are read as a replacement character, which is welcome in comments and strings and nowhere else.

Main definitions: `lexemeAt`, `lexemes`, and `Lexemes.ofBytes`, which divides comments and tokens.
-/

namespace Gleaner.Java

open Gleaner.Syntax (Token TokenClass Node)
open Gleaner.Utf8 (Bytes)

/-- What a piece of source is. -/
inductive LexemeClass where
  | blank
  | comment (kind : String)
  | token (sort : TokenClass)
deriving DecidableEq, Repr

/-- The symbols, longer ones before those they start with. -/
def symbols : List (List Char) :=
  ["@interface", ">>>=", "<<=", ">>=", ">>>", "...", "->", "::", "++", "--", "&&", "||", "==", "!=",
    "<=", ">=", "+=", "-=", "*=", "/=", "&=", "|=", "^=", "%=", "<<", ">>", "(", ")", "\x7b", "\x7d",
    "[", "]", ";", ",", ".", "@", "=", ">", "<", "!", "~", "?", ":", "+", "-", "*", "/", "&", "|",
    "^", "%"].map String.toList

/-- A character between tokens. -/
def isSourceBlank (c : Char) : Bool :=
  c == ' ' || ('\t' ≤ c && c ≤ '\r')

/-- The mark that may open a file. -/
def byteOrderMark : Char := Char.ofNat 0xfeff

/-- The length of a block comment's rest, up to and with its end. -/
def commentEnd? (taken : Nat) : List Char → Option Nat
  | '*' :: '/' :: _ => some (taken + 2)
  | _ :: rest => commentEnd? (taken + 1) rest
  | [] => none

/-- The lexeme of a text that starts with neither a blank nor a comment. -/
def tokenAt (cs : List Char) : TokenClass × Nat :=
  match cs with
  | [] => (.invalid, 0)
  | c :: rest =>
    if isIdentifierStart c then
      (.word, 1 + (rest.takeWhile isIdentifierPart).length)
    else if c == '"' then
      match stringEnd? cs with
      | some n => (.literal "string_literal", n)
      | none => (.invalid, 1)
    else if c == '\'' then
      match characterEnd? cs with
      | some n => (.literal "character_literal", n)
      | none => (.invalid, 1)
    else
      match numeral? cs with
      | some (kind, n) => (.literal kind, n)
      | none =>
        match symbols.find? (·.isPrefixOf cs) with
        | some symbol => (.symbol, symbol.length)
        | none => (.invalid, 1)

/-- The lexeme at the start of a text, and how many characters it has. -/
def lexemeAt (cs : List Char) : LexemeClass × Nat :=
  match cs with
  | '/' :: '/' :: rest => (.comment "line_comment", 2 + (rest.takeWhile (· ≠ '\n')).length)
  | '/' :: '*' :: rest =>
    match commentEnd? 2 rest with
    | some n => (.comment "block_comment", n)
    | none => (.token .invalid, 2)
  | c :: rest =>
    if isSourceBlank c then (.blank, 1 + (rest.takeWhile isSourceBlank).length)
    else
      let (sort, n) := tokenAt cs
      (.token sort, n)
  | [] => (.blank, 0)

/-- A piece of source with its range of bytes. -/
structure Lexeme where
  sort : LexemeClass
  text : List Char
  start : Nat
  stop : Nat
deriving DecidableEq, Repr

/-- The sum of widths. -/
def totalWidth (widths : List Nat) : Nat :=
  widths.foldl (fun total width => total + width) 0

/-- Cut characters into lexemes, given how many bytes each character has. -/
def lexemes (start : Nat) (widths : List Nat) : List Char → List Lexeme
  | [] => []
  | c :: rest =>
    let (sort, length) := lexemeAt (c :: rest)
    let more := length - 1
    let stop := start + totalWidth (widths.take (more + 1))
    ⟨sort, c :: rest.take more, start, stop⟩ ::
      lexemes stop (widths.drop (more + 1)) (rest.drop more)
termination_by cs => cs.length
decreasing_by
  simp only [List.length_drop, List.length_cons]
  omega

/-- The tokens and the comments of a file. -/
structure Lexemes where
  tokens : List Token
  comments : List Node

/-- A lexeme as a token. -/
def Lexeme.token? (l : Lexeme) : Option Token :=
  match l.sort with
  | .token sort => some { sort, text := String.ofList l.text, start := l.start, stop := l.stop }
  | _ => none

/-- A lexeme as a comment. -/
def Lexeme.comment? (l : Lexeme) : Option Node :=
  match l.sort with
  | .comment kind => some (.node { kind, start := l.start, stop := l.stop } [])
  | _ => none

/-- The tokens and comments in bytes; a mark at the very start is passed over. -/
def Lexemes.ofBytes (bytes : Bytes) : Lexemes :=
  let chunks := Utf8.chunks bytes
  let chars := chunks.map Utf8.Chunk.char
  let widths := chunks.map (·.bytes.length)
  let all :=
    match chars, widths with
    | c :: rest, n :: more => if c == byteOrderMark then lexemes n more rest else lexemes 0 widths chars
    | _, _ => []
  { tokens := all.filterMap Lexeme.token?, comments := all.filterMap Lexeme.comment? }

end Gleaner.Java
