import Mathlib.Algebra.BigOperators.Intervals
import Mathlib.Order.Bounds.Basic
import Gleaner.Schema.Scan

/-!
# The blocks of a schema file

A scan keeps a state and reads each line once. The same blocks can be told without a state, by
looking at the whole file: the first opener, the longest run of comment lines right above it, the
first package line before it, and the first line up to which the braces no longer leave the block
open. After that line the decomposition starts afresh, with nothing but the package kept.

Lines are counted from one throughout.

## Main definitions

* `openerAt`, `packageAt`, `commentAt`, `balanceAt`: what the line with a number says
* `Block`, `FirstBlock`: a block by its place, and the first one from a line on
* `Block.depthAt`, `Block.EndsAt`: the depth after a line, and the line on which a block ends
* `Decomposition`: the elements and the diagnostics from a line on

## Main results

* `FirstBlock.unique`, `Block.EndsAt.unique`: a line leaves no choice of its next block and its end
* `Decomposition.unique`: a file has at most one decomposition
-/

namespace Gleaner.Schema

open Gleaner.Text

/-! ## What a line says -/

/-- The line with a number. -/
def lineAt (lines : List String) : ℕ → Option String
  | 0 => none
  | n + 1 => lines[n]?

/-- The opener that a line is. -/
def openerAt (lines : List String) (n : ℕ) : Option Opener :=
  (lineAt lines n).bind fun line => opener? line.toList

/-- The package that a line, trimmed, names. -/
def packageAt (lines : List String) (n : ℕ) : Option String :=
  (lineAt lines n).bind fun line => (package? (trim line.toList)).map String.ofList

/-- The text of a comment line, which is one that, trimmed, starts with the marker: what follows the
marker, trimmed. -/
def commentAt (lines : List String) (n : ℕ) : Option String :=
  (lineAt lines n).bind fun line =>
    if commentMarker.isPrefixOf (trim line.toList) then
      some (trimmed (String.ofList ((trim line.toList).drop commentMarker.length)))
    else none

/-- What a line adds to the depth of a block. -/
def balanceAt (lines : List String) (n : ℕ) : ℤ :=
  ((lineAt lines n).map fun line => braceBalance line.toList).getD 0

/-- The package of the first package line among the lines `p` to `n - 1`. -/
def firstPackage (lines : List String) (p n : ℕ) : Option String :=
  (List.range' p (n - p)).findSome? (packageAt lines)

/-- The numbers `k` such that the lines `n - k` to `n - 1` are comment lines, none of them before
line `p`. -/
def commentRuns (lines : List String) (p n : ℕ) : Set ℕ :=
  {k | p + k ≤ n ∧ ∀ i, n - k ≤ i → i < n → (commentAt lines i).isSome}

/-- The texts of the comment lines among the lines `a` to `n - 1`. -/
def commentTexts (lines : List String) (a n : ℕ) : List String :=
  (List.range' a (n - a)).filterMap (commentAt lines)

/-! ## Blocks -/

/-- A block: its opener with the number of the opening line, the number of comment lines that belong
to it, and the package it is in. -/
structure Block where
  opener : Opener
  line : ℕ
  comments : ℕ
  package : Option String

/-- The first block from line `p` on, where `found` is the package that is known by then. -/
structure FirstBlock (lines : List String) (p : ℕ) (found : Option String) (b : Block) : Prop where
  least : IsLeast {i | p ≤ i ∧ (openerAt lines i).isSome} b.line
  opener : openerAt lines b.line = some b.opener
  comments : IsGreatest (commentRuns lines p b.line) b.comments
  package : b.package = found.or (firstPackage lines p b.line)

namespace Block

/-- The depth after line `j`: one for the brace of the opener, then what follows it on its line and
the lines up to `j` add. -/
def depthAt (b : Block) (lines : List String) (j : ℕ) : ℤ :=
  1 + braceBalance b.opener.rest + ∑ n ∈ Finset.Ioc b.line j, balanceAt lines n

/-- The block ends on line `j`: it is the first line, from the opening one on, after which the block
is not open any more. -/
def EndsAt (b : Block) (lines : List String) (j : ℕ) : Prop :=
  IsLeast {j | b.line ≤ j ∧ j ≤ lines.length ∧ b.depthAt lines j ≤ 0} j

/-- The number of the first line, comments included. -/
def startLine (b : Block) : ℤ :=
  (b.line : ℤ) - b.comments

/-- The documentation: the texts of the comment lines, one a line, trimmed; absent if empty. -/
def documentation (b : Block) (lines : List String) : Option String :=
  let text := trimmed (join "\n" (commentTexts lines (b.line - b.comments) b.line))
  if text.isEmpty then none else some text

/-- The element of a block that ends on line `j`. -/
def element (b : Block) (filePath fileName : Text) (lines : List String) (j : ℕ) : Element where
  name := String.ofList b.opener.name
  kind := b.opener.kind
  declarationLine := b.line
  startLine := b.startLine
  endLine := j
  documentation := b.documentation lines
  context :=
    { filePath
      fileName
      snippet := snippet lines b.startLine j
      package := b.package }

/-- How reports call a block. -/
def title (b : Block) : String :=
  s!"{b.opener.kind.noun} '{String.ofList b.opener.name}' starting at line {b.startLine}"

/-- The report of a block that closes too much on line `j`. -/
def overclosed (b : Block) (filePath : Text) (j : ℕ) : Diagnostic where
  filePath
  message := s!"Mismatched braces in {b.title}; block discarded"
  kind := .unbalancedBlock
  line := some j

/-- The report of a block that never ends. -/
def unclosed (b : Block) (filePath : Text) : Diagnostic where
  filePath
  message := s!"Reached end of file with unclosed {b.title}"
  kind := .unterminatedBlock

end Block

/-! ## The decomposition -/

/-- **The block decomposition** of the lines from `p` on, where `found` is the package known by then:
the elements and the diagnostics, each in order. -/
inductive Decomposition (filePath fileName : Text) (lines : List String) :
    ℕ → Option String → List Element → List Diagnostic → Prop
  /-- No line opens a block. -/
  | idle {p : ℕ} {found : Option String} (none_opens : ∀ i, p ≤ i → openerAt lines i = none) :
      Decomposition filePath fileName lines p found [] []
  /-- The next block never ends. -/
  | unclosed {p : ℕ} {found : Option String} {b : Block} (first : FirstBlock lines p found b)
      (never : ∀ j, ¬ b.EndsAt lines j) :
      Decomposition filePath fileName lines p found [] [b.unclosed filePath]
  /-- The next block ends on a line that closes it. -/
  | closed {p j : ℕ} {found : Option String} {b : Block} {es : List Element} {ds : List Diagnostic}
      (first : FirstBlock lines p found b) (ends : b.EndsAt lines j)
      (zero : b.depthAt lines j = 0)
      (rest : Decomposition filePath fileName lines (j + 1) b.package es ds) :
      Decomposition filePath fileName lines p found
        (b.element filePath fileName lines j :: es) ds
  /-- The next block ends on a line that closes more than was open. -/
  | overclosed {p j : ℕ} {found : Option String} {b : Block} {es : List Element}
      {ds : List Diagnostic} (first : FirstBlock lines p found b) (ends : b.EndsAt lines j)
      (negative : b.depthAt lines j < 0)
      (rest : Decomposition filePath fileName lines (j + 1) b.package es ds) :
      Decomposition filePath fileName lines p found es (b.overclosed filePath j :: ds)

variable {lines : List String} {p j : ℕ} {found : Option String} {b b' : Block}

theorem FirstBlock.start_le (h : FirstBlock lines p found b) : p ≤ b.line :=
  h.least.1.1

theorem FirstBlock.comments_le (h : FirstBlock lines p found b) : p + b.comments ≤ b.line :=
  h.comments.1.1

theorem FirstBlock.startLine_eq (h : FirstBlock lines p found b) :
    b.startLine = ((b.line - b.comments : ℕ) : ℤ) := by
  have := h.comments_le
  rw [Block.startLine]
  omega

/-- From a line on there is at most one first block. -/
theorem FirstBlock.unique (h : FirstBlock lines p found b) (h' : FirstBlock lines p found b') :
    b = b' := by
  obtain ⟨o, i, k, m⟩ := b
  obtain ⟨o', i', k', m'⟩ := b'
  obtain rfl : i = i' := h.least.unique h'.least
  obtain rfl : k = k' := h.comments.unique h'.comments
  obtain rfl : o = o' := Option.some.inj (h.opener.symm.trans h'.opener)
  obtain rfl : m = m' := h.package.trans h'.package.symm
  rfl

theorem FirstBlock.not_idle (h : FirstBlock lines p found b)
    (hidle : ∀ i, p ≤ i → openerAt lines i = none) : False := by
  have hsome := h.opener
  rw [hidle b.line h.start_le] at hsome
  cases hsome

theorem Block.EndsAt.unique {j j' : ℕ} (h : b.EndsAt lines j) (h' : b.EndsAt lines j') : j = j' :=
  IsLeast.unique h h'

theorem Block.EndsAt.line_le (h : b.EndsAt lines j) : b.line ≤ j :=
  h.1.1

theorem Block.EndsAt.le_length (h : b.EndsAt lines j) : j ≤ lines.length :=
  h.1.2.1

/-- **A file has at most one decomposition**: at each line the next block, its end and the sign of the
depth there are determined. -/
theorem Decomposition.unique {filePath fileName : Text} {es es' : List Element}
    {ds ds' : List Diagnostic} (h : Decomposition filePath fileName lines p found es ds)
    (h' : Decomposition filePath fileName lines p found es' ds') : es' = es ∧ ds' = ds := by
  -- the other decomposition has to take the same constructor at each block
  induction h generalizing es' ds' with
  | idle hidle =>
    cases h' with
    | idle => exact ⟨rfl, rfl⟩
    | unclosed first => exact (first.not_idle hidle).elim
    | closed first => exact (first.not_idle hidle).elim
    | overclosed first => exact (first.not_idle hidle).elim
  | unclosed first never =>
    cases h' with
    | idle hidle => exact (first.not_idle hidle).elim
    | unclosed first' =>
      obtain rfl := first.unique first'
      exact ⟨rfl, rfl⟩
    | closed first' ends =>
      obtain rfl := first.unique first'
      exact absurd ends (never _)
    | overclosed first' ends =>
      obtain rfl := first.unique first'
      exact absurd ends (never _)
  | closed first ends zero _ ih =>
    cases h' with
    | idle hidle => exact (first.not_idle hidle).elim
    | unclosed first' never =>
      obtain rfl := first.unique first'
      exact absurd ends (never _)
    | closed first' ends' _ rest =>
      obtain rfl := first.unique first'
      obtain rfl := ends.unique ends'
      obtain ⟨rfl, rfl⟩ := ih rest
      exact ⟨rfl, rfl⟩
    | overclosed first' ends' negative =>
      obtain rfl := first.unique first'
      obtain rfl := ends.unique ends'
      exact absurd zero negative.ne
  | overclosed first ends negative _ ih =>
    cases h' with
    | idle hidle => exact (first.not_idle hidle).elim
    | unclosed first' never =>
      obtain rfl := first.unique first'
      exact absurd ends (never _)
    | closed first' ends' zero =>
      obtain rfl := first.unique first'
      obtain rfl := ends.unique ends'
      exact absurd zero negative.ne
    | overclosed first' ends' _ rest =>
      obtain rfl := first.unique first'
      obtain rfl := ends.unique ends'
      obtain ⟨rfl, rfl⟩ := ih rest
      exact ⟨rfl, rfl⟩

end Gleaner.Schema
