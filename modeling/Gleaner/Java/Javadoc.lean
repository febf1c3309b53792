import Gleaner.Text.Blank

/-!
# Javadoc comments

A Javadoc comment starts with `/**`. Its cleaned text has no delimiters and no leading stars: from a
line start on, blanks, a star and one following blank are dropped. The blanks may run over line ends,
so empty lines right before a starred line go with its star. Each line is then trimmed at its end, and
the whole on both sides.

Main definitions: `isJavadoc`, `dropStars` and `cleanJavadoc`.
-/

namespace Gleaner.Java

open Gleaner.Text

/-- What a Javadoc comment starts with. -/
def javadocOpener : List Char := ['/', '*', '*']

/-- What it ends with. -/
def javadocCloser : List Char := ['*', '/']

/-- The empty block comment, which is no Javadoc comment. -/
def emptyComment : List Char := ['/', '*', '*', '/']

/-- Whether a comment is a Javadoc comment. -/
def isJavadoc (comment : List Char) : Bool :=
  let text := trim comment
  javadocOpener.isPrefixOf text && text != emptyComment

/-- Drop the stars that lead lines. The first argument is the run of blanks since the last line start,
or nothing when something else stood there. -/
def dropStarsFrom : Option (List Char) → List Char → List Char
  | none, [] => []
  | some blanks, [] => blanks
  | none, c :: rest => c :: dropStarsFrom (if c = '\n' then some [] else none) rest
  | some _, '*' :: ' ' :: rest => dropStarsFrom none rest
  | some _, '*' :: rest => dropStarsFrom none rest
  | some blanks, c :: rest =>
    if isBlank c then dropStarsFrom (some (blanks ++ [c])) rest
    else blanks ++ c :: dropStarsFrom none rest

/-- Drop the stars that lead lines, with the blanks before and one blank after them. -/
def dropStars (text : List Char) : List Char :=
  dropStarsFrom (some []) text

/-- A comment without its delimiters. -/
def javadocBody (comment : List Char) : List Char :=
  let text := trim comment
  let text := if javadocOpener.isPrefixOf text then text.drop javadocOpener.length else text
  if javadocCloser.isSuffixOf text then text.take (text.length - javadocCloser.length) else text

/-- Trim each line at its end. -/
def trimLineEnds (text : List Char) : List Char :=
  List.intercalate ['\n'] ((text.splitOn '\n').map trimEnd)

/-- The documentation in a Javadoc comment, absent if nothing remains. -/
def cleanJavadoc (comment : List Char) : Option (List Char) :=
  let text := trim (trimLineEnds (dropStars (javadocBody comment)))
  if text.isEmpty then none else some text

end Gleaner.Java
