import Gleaner.Text.Basic

/-!
# Tokens

The parts of a YAML text: marks between documents, the beginnings and ends of lists and maps, marks of
keys and values, and scalars with what may stand before them. Lists and maps written by indentation have
beginnings and ends too, although no character stands for them.
-/

namespace Gleaner.Yaml

/-- A directive at the head of a document. -/
inductive Directive where
  | version (major : Nat)
  | tag (handle shorthand : String)
  | other
deriving DecidableEq, Repr

/-- A tag as it is written: what follows a handle, or a whole name. -/
structure TagName where
  handle : Option String
  suffix : String
deriving DecidableEq, Repr

/-- A part of the text. -/
inductive Token where
  | directive (d : Directive)
  | documentStart
  | documentEnd
  | streamEnd
  | blockSequenceStart
  | blockMappingStart
  | blockEnd
  | flowSequenceStart
  | flowSequenceEnd
  | flowMappingStart
  | flowMappingEnd
  | flowEntry
  | blockEntry
  | key
  | value
  | alias (name : String)
  | anchor (name : String)
  | tag (name : TagName)
  | scalar (text : Text) (plain : Bool)
deriving DecidableEq, Repr

end Gleaner.Yaml
