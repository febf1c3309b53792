import Gleaner.Text.Pattern

/-!
# Kinds of nodes

The kind of a node is named by its tag, or, for a plain scalar without a tag, seen from its characters.

Main definitions: `Kind`, `Kind.ofTag`, `plainKind`.
-/

namespace Gleaner.Yaml

/-- What a node stands for. -/
inductive Kind where
  | null
  | bool
  | int
  | float
  | binary
  | timestamp
  | text
  | sequence
  | mapping
  | set
  | orderedMap
  | pairs
  | merge
  | default
  | other
deriving DecidableEq, Repr

/-- The start of the names of the kinds of this module. -/
def standardTag : String := "tag:yaml.org,2002:"

/-- The names of the kinds. -/
def kindNames : List (String × Kind) := [
  ("null", .null), ("bool", .bool), ("int", .int), ("float", .float), ("binary", .binary),
  ("timestamp", .timestamp), ("str", .text), ("seq", .sequence), ("map", .mapping), ("set", .set),
  ("omap", .orderedMap), ("pairs", .pairs), ("merge", .merge), ("value", .default)]

/-- The kind that a tag names. -/
def Kind.ofTag (tag : String) : Kind :=
  match kindNames.find? fun entry => standardTag ++ entry.1 = tag with
  | some (_, kind) => kind
  | none => .other

/-! ## Plain scalars -/

open Gleaner.Text
open Gleaner.Text.Pattern

/-- A sign, if there is one. -/
def signPattern : Pattern :=
  optional (oneOf ['+', '-'])

/-- A character of a number in which underscores may divide digits. -/
def isSpacedDigit (c : Char) : Bool :=
  c.isDigit || c = '_'

/-- A digit and then digits with underscores. -/
def digitsPattern : Pattern :=
  (one Char.isDigit).andThen (run isSpacedDigit)

/-- A digit that is not zero and then digits with underscores. -/
def countPattern : Pattern :=
  (one fun c => c.isDigit && c ≠ '0').andThen (run isSpacedDigit)

/-- The parts after the first of a number in the base of sixty. -/
def sixtiesPattern : Pattern :=
  many ((oneOf [':']).andThen
    (first [(one fun c => '0' ≤ c && c ≤ '5').andThen (one Char.isDigit), one Char.isDigit]))

/-- An exponent, whose sign has to be there. -/
def exponentPattern : Pattern :=
  optional (sequence [oneOf ['e', 'E'], oneOf ['+', '-'], runOf 1 Char.isDigit])

/-- The forms of integers. -/
def intPatterns : List Pattern := [
  sequence [signPattern, exactly ['0', 'b'], runOf 1 fun c => c = '0' || c = '1' || c = '_'],
  sequence [signPattern, oneOf ['0'], runOf 1 fun c => ('0' ≤ c && c ≤ '7') || c = '_'],
  sequence [signPattern, first [oneOf ['0'], countPattern]],
  sequence [signPattern, exactly ['0', 'x'],
    runOf 1 fun c => c.isDigit || ('a' ≤ c && c ≤ 'f') || ('A' ≤ c && c ≤ 'F') || c = '_'],
  sequence [signPattern, countPattern, sixtiesPattern]]

/-- The forms of floating point numbers. -/
def floatPatterns : List Pattern := [
  sequence [signPattern, digitsPattern, oneOf ['.'], run isSpacedDigit, exponentPattern],
  sequence [oneOf ['.'], digitsPattern, exponentPattern],
  sequence [signPattern, digitsPattern, sixtiesPattern, oneOf ['.'], run isSpacedDigit],
  sequence [signPattern, oneOf ['.'], first (["inf", "Inf", "INF"].map fun s => exactly s.toList)],
  sequence [oneOf ['.'], first (["nan", "NaN", "NAN"].map fun s => exactly s.toList)]]

/-- A digit. -/
def digitPattern : Pattern :=
  one Char.isDigit

/-- One or two digits. -/
def shortPattern : Pattern :=
  digitPattern.andThen (optional digitPattern)

/-- Two digits. -/
def pairPattern : Pattern :=
  digitPattern.andThen digitPattern

/-- A year with four digits. -/
def yearPattern : Pattern :=
  pairPattern.andThen pairPattern

/-- The offset of a time. -/
def zonePattern : Pattern :=
  optional (sequence [run fun c => c = ' ' || c = '\t',
    first [oneOf ['Z'], sequence [oneOf ['+', '-'], shortPattern,
      optional (sequence [oneOf [':'], pairPattern])]]])

/-- The forms of dates and times. -/
def timestampPatterns : List Pattern := [
  sequence [yearPattern, oneOf ['-'], pairPattern, oneOf ['-'], pairPattern],
  sequence [yearPattern, oneOf ['-'], shortPattern, oneOf ['-'], shortPattern,
    first [oneOf ['T', 't'], runOf 1 fun c => c = ' ' || c = '\t'], shortPattern,
    oneOf [':'], pairPattern, oneOf [':'], pairPattern,
    optional (sequence [oneOf ['.'], run Char.isDigit]), zonePattern]]

/-- The words for truth values. -/
def truthWords : List String := [
  "yes", "Yes", "YES", "no", "No", "NO", "true", "True", "TRUE", "false", "False", "FALSE",
  "on", "On", "ON", "off", "Off", "OFF"]

/-- The words for nothing. -/
def nullWords : List String := ["", "~", "null", "Null", "NULL"]

/-- The kind of a plain scalar. -/
def plainKind (text : String) : Kind :=
  let cs := text.toList
  if truthWords.contains text then .bool
  else if floatPatterns.any (·.matchesAll cs) then .float
  else if intPatterns.any (·.matchesAll cs) then .int
  else if text = "<<" then .merge
  else if nullWords.contains text then .null
  else if timestampPatterns.any (·.matchesAll cs) then .timestamp
  else if text = "=" then .default
  else if ["!", "&", "*"].contains text then .other
  else .text

end Gleaner.Yaml
