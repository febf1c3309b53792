import Gleaner.Text.Basic
import Gleaner.Text.Quoted

/-!
# Elements

An element is one declaration that was found: a method, or a `message` or `enum` block of a schema
file. It knows where it stands, which lines it covers, and its verbatim source.

The first line includes attached documentation, so a well-formed element has its declaration line
between its first and its last line; `Element.checked` refuses any other.
-/

namespace Gleaner

/-- The kinds of declarations. -/
inductive ElementKind where
  | method
  | message
  | enum
deriving DecidableEq, Repr

/-- The name of a kind in written output. -/
def ElementKind.name : ElementKind → String
  | .method => "Method"
  | .message => "Message"
  | .enum => "Enum"

/-- The name of a kind in running text. -/
def ElementKind.noun : ElementKind → String
  | .method => "method"
  | .message => "message"
  | .enum => "enum"

/-- The kind with a given written name. -/
def ElementKind.ofName? (name : Text) : Option ElementKind :=
  [.method, .message, .enum].find? (·.name = name)

/-- Why a written kind name is refused. -/
def ElementKind.unknownMessage (name : Text) : String :=
  Text.quoted name ++ " is not a valid ElementKind"

/-- Where an element stands: its file, its verbatim source, its package and the named type around
it. The path is relative to the root of the source tree. -/
structure Context (τ : Type := String) where
  filePath : Text
  fileName : Text
  snippet : τ
  package : Option τ := none
  enclosingType : Option τ := none
deriving DecidableEq, Repr

/-- A declaration found in a source file. Lines are counted from one. What is read from a file are strings;
an element as such may have any texts. -/
structure Element (τ : Type := String) where
  name : τ
  kind : ElementKind
  declarationLine : Int
  startLine : Int
  endLine : Int
  context : Context τ
  signature : Option τ := none
  documentation : Option τ := none
deriving DecidableEq, Repr

/-- The lines of an element are out of order. -/
structure LineRangeError where
  kind : ElementKind
  name : String
  startLine : Int
  declarationLine : Int
  endLine : Int
deriving DecidableEq, Repr

/-- The wording of a line range error. -/
def LineRangeError.message (e : LineRangeError) : String :=
  s!"Invalid line range for {e.kind.name} '{e.name}': start={e.startLine} " ++
    s!"declaration={e.declarationLine} end={e.endLine}"

/-- The declaration line lies within the element. -/
def Element.WellOrdered (e : Element) : Prop :=
  e.startLine ≤ e.declarationLine ∧ e.declarationLine ≤ e.endLine

instance (e : Element) : Decidable e.WellOrdered :=
  inferInstanceAs (Decidable (_ ∧ _))

/-- The element itself if its lines are in order. -/
def Element.checked (e : Element) : Except LineRangeError Element :=
  if e.WellOrdered then .ok e
  else .error ⟨e.kind, e.name, e.startLine, e.declarationLine, e.endLine⟩

end Gleaner
