/-!
# Source lines and snippets

A source text is a sequence of lines that end at line feeds only; carriage returns stay in their
line. A snippet is a run of whole lines, each with its line feed, so that it is verbatim source.

Main definitions: `splitLines`, `joinLines` and `snippet`.
-/

namespace Gleaner.Text

/-- Drop the last piece if it is empty: a final line feed ends the last line and opens no new one. -/
def dropEmptyLast (pieces : List (List Char)) : List (List Char) :=
  if pieces.getLast? = some [] then pieces.dropLast else pieces

/-- The lines of a source text, without their line feeds. -/
def splitLines (text : String) : List String :=
  (dropEmptyLast (text.toList.splitOn '\n')).map String.ofList

/-- Lines written one after the other, each ended by a line feed. -/
def joinLines : List String → String
  | [] => ""
  | line :: rest => line ++ "\n" ++ joinLines rest

/-- The place in a list of `length` items that an index means: a negative one counts from the end,
and all are kept within the list. -/
def clampIndex (length : Nat) (index : Int) : Nat :=
  if index < 0 then (index + length).toNat else min index.toNat length

/-- The items from index `start` up to, but not including, index `stop`. -/
def slice {α : Type} (items : List α) (start stop : Int) : List α :=
  let first := clampIndex items.length start
  let past := clampIndex items.length stop
  (items.drop first).take (past - first)

/-- The verbatim source of the lines `first` to `last`, counted from one and both included. -/
def snippet (lines : List String) (first last : Int) : String :=
  joinLines (slice lines (first - 1) last)

end Gleaner.Text
