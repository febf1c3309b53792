import Gleaner.Text.Basic
import Gleaner.Text.Blank

/-!
# Paths

A path is text in which slashes separate components. The module has its normal form, its form relative
to a root directory, and the test for excluded segments. Nothing here looks at files: a working
directory is an argument where one is needed.

The normal form has no empty component, no `.`, and a `..` only where nothing before it can be taken
back. Exactly two leading slashes stay two; more than two count as one.

Main definitions: `normalize`, `collapse`, `suffix`, `absolute`, `relative`, `relativeTo` and `isExcluded`.
-/

namespace Gleaner.Path

/-- The pieces of a path between its slashes, empty ones included. -/
def pieces (path : Text) : List Text :=
  (path.toList.splitOn (.char '/')).map Text.ofList

/-- Whether a path starts at the root. -/
def isAbsolute (path : Text) : Bool :=
  [CodePoint.char '/'].isPrefixOf path.toList

/-- One path after another; an absolute second path stands alone. -/
def append (path next : Text) : Text :=
  if isAbsolute next then next
  else if path.isEmpty || [CodePoint.char '/'].isSuffixOf path.toList then path ++ next
  else path ++ "/" ++ next

/-- The text after the last slash. -/
def baseName (path : Text) : Text :=
  (pieces path).getLastD ""

/-- The text before the last slash, without the slashes that end it unless it has nothing else. -/
def parent (path : Text) : Text :=
  let head := path.toList.take (path.length - (baseName path).length)
  let kept := Text.dropEnd (· = .char '/') head
  Text.ofList (if kept.isEmpty then head else kept)

/-- Components with a slash between neighbours. -/
def join (components : List Text) : Text :=
  Text.join "/" components

/-- The leading slashes that a normal form keeps. -/
def leadingSlashes (path : Text) : Nat :=
  match (path.toList.takeWhile (· = .char '/')).length with
  | 0 => 0
  | 2 => 2
  | _ => 1

/-- Take one component onto a stack of normal components, last first. -/
def pushComponent (rooted : Bool) (stack : List Text) (component : Text) : List Text :=
  if component = "" || component = "." then stack
  else if component ≠ ".." then component :: stack
  else
    match stack with
    | [] => if rooted then [] else [".."]
    | last :: rest => if last = ".." then ".." :: stack else rest

/-- The components of the normal form of a path. -/
def components (path : Text) : List Text :=
  ((pieces path).foldl (pushComponent (isAbsolute path)) []).reverse

/-- The normal form of a path. -/
def normalize (path : Text) : Text :=
  let text := Text.ofList (List.replicate (leadingSlashes path) '/')
    ++ join (components path)
  if text.isEmpty then "." else text

/-- The normal form of a path seen from a working directory. -/
def absolute (cwd path : Text) : Text :=
  normalize (append cwd path)

/-- A path without empty components and without `.`, but with every `..`. -/
def collapse (path : Text) : Text :=
  let kept := (pieces path).filter fun piece : Text => piece ≠ "" && piece ≠ "."
  let text := Text.ofList (List.replicate (leadingSlashes path) '/') ++ join kept
  if text.isEmpty then "." else text

/-- The ending of a name from its last dot on, unless the dot is its first or last character. -/
def suffix (path : Text) : Text :=
  let name := (baseName (collapse path)).toList
  let ending := name.reverse.takeWhile (· ≠ .char '.')
  if ending.isEmpty || name.length ≤ ending.length + 1 then ""
  else Text.ofList ('.' :: ending.reverse)

/-- The length of the common start of two lists. -/
def commonLength : List Text → List Text → Nat
  | a :: as, b :: bs => if a = b then commonLength as bs + 1 else 0
  | _, _ => 0

/-- An empty path names nothing. -/
inductive PathError where
  | empty
deriving DecidableEq, Repr

/-- The wording of a path error. -/
def PathError.message : PathError → String
  | .empty => "no path specified"

/-- The way from one list of components to another: up for each that is not shared, then down. -/
def steps (start target : List Text) : List Text :=
  let shared := commonLength start target
  List.replicate (start.length - shared) (".." : Text) ++ target.drop shared

/-- A path as seen from a root directory. -/
def relative (cwd root path : Text) : Text :=
  match steps (components (append cwd root)) (components (append cwd path)) with
  | [] => "."
  | way => join way

/-- A path as seen from a root directory, if there is a path. -/
def relativeTo (cwd root path : Text) : Except PathError Text :=
  if path.isEmpty then .error .empty else .ok (relative cwd root path)

/-- Whether a text occurs in another. -/
def occurs (part : List CodePoint) : List CodePoint → Bool
  | [] => part.isEmpty
  | c :: rest => part.isPrefixOf (c :: rest) || occurs part rest

/-- A relative path with one slash in front and slashes only. -/
def wrap (path : Text) : List CodePoint :=
  '/' :: (path.toList.map fun c => if c = .char '\\' then .char '/' else c).dropWhile (· = .char '/')

/-- Whether a relative path has one of the segments, as whole components, before its end. -/
def isExcluded (segments : List Text) (path : Text) : Bool :=
  segments.any fun segment => occurs (.char '/' :: segment.toList ++ [.char '/']) (wrap path)

end Gleaner.Path
