/-!
# Blank characters and words

Blank characters separate words, may surround what a line says, and are never part of it. The module
has the class itself, trimming on either side, the words of a text, and the collapse of blank runs.
Everything is on lists of characters; `trimmed` is the form for strings.
-/

namespace Gleaner.Text

/-- The blank characters: tabs, line and file separators, the ordinary blank and the wide ones. -/
def isBlank (c : Char) : Bool :=
  let n := c.toNat
  (0x09 ≤ n && n ≤ 0x0d) || (0x1c ≤ n && n ≤ 0x20) || n == 0x85 || n == 0xa0 || n == 0x1680 ||
    (0x2000 ≤ n && n ≤ 0x200a) || n == 0x2028 || n == 0x2029 || n == 0x202f || n == 0x205f ||
    n == 0x3000

/-- Drop the members of a class from the end. -/
def dropEnd {α : Type} (p : α → Bool) (cs : List α) : List α :=
  (cs.reverse.dropWhile p).reverse

/-- Drop leading blanks. -/
def trimStart (cs : List Char) : List Char :=
  cs.dropWhile isBlank

/-- Drop trailing blanks. -/
def trimEnd (cs : List Char) : List Char :=
  dropEnd isBlank cs

/-- Drop blanks on both sides. -/
def trim (cs : List Char) : List Char :=
  trimEnd (trimStart cs)

/-- A string without the blanks around it. -/
def trimmed (s : String) : String :=
  String.ofList (trim s.toList)

/-- Split at blanks: the word under way and the words after it. -/
def wordsFrom (word : List Char) : List Char → List (List Char)
  | [] => if word.isEmpty then [] else [word.reverse]
  | c :: rest =>
    if isBlank c then
      if word.isEmpty then wordsFrom [] rest else word.reverse :: wordsFrom [] rest
    else wordsFrom (c :: word) rest

/-- The words of a text: its longest pieces without a blank. -/
def words (cs : List Char) : List (List Char) :=
  wordsFrom [] cs

/-- Replace each run of blanks by one ordinary blank; `inRun` says that the last character was one. -/
def collapseFrom (inRun : Bool) : List Char → List Char
  | [] => []
  | c :: rest =>
    if isBlank c then
      if inRun then collapseFrom true rest else ' ' :: collapseFrom true rest
    else c :: collapseFrom false rest

/-- Replace each run of blanks by one ordinary blank. -/
def collapse (cs : List Char) : List Char :=
  collapseFrom false cs

/-- Join strings or texts with a separator between neighbours. -/
def join {α : Type} [Append α] [Inhabited α] (separator : α) : List α → α
  | [] => default
  | [s] => s
  | s :: rest => s ++ separator ++ join separator rest

end Gleaner.Text
