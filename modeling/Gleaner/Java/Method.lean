import Gleaner.Diagnostic
import Gleaner.Java.Javadoc
import Gleaner.Java.Signature
import Gleaner.Text.Lines

/-!
# Methods of a Java file

The walk goes through the named nodes of a syntax tree, parents before children and children in source
order, and stops at every method declaration, and at constructors if they are wanted. Each such site
gives one element: its signature, its Javadoc, the named type around it and its verbatim lines.

A Javadoc comment is attached when it is the nearest earlier named sibling and ends at most one row
above the declaration. The walk goes a bounded number of levels deep; a tree that is deeper is given up
at the first node beyond the bound.

Main definitions: `Site`, `Visit`, `visits`, `siteElement` and `extractMethods`.
-/

namespace Gleaner.Java

open Gleaner.Syntax
open Gleaner.Utf8 (Bytes)

/-- What can go wrong in a tree. -/
inductive MethodError where
  | malformed (cause : Utf8.Malformed)
  | lineRange (cause : LineRangeError)
  | tooDeep
deriving DecidableEq, Repr

/-- Method declarations are always extracted. -/
def isMethodKind (kind : String) : Bool :=
  kind == "method_declaration"

/-- Constructor declarations are extracted on request. -/
def isConstructorKind (kind : String) : Bool :=
  kind == "constructor_declaration"

/-- The declarations of named types. -/
def isTypeKind (kind : String) : Bool :=
  ["class_declaration", "interface_declaration", "enum_declaration", "record_declaration",
    "annotation_type_declaration"].contains kind

/-- A Java source file: its bytes and where it lies. -/
structure SourceFile where
  bytes : Bytes
  filePath : Text
  fileName : Text

/-- A declaration in its place: the nodes around it, nearest first, and the named sibling before. -/
structure Site where
  node : Node
  ancestors : List Node
  previous : Option Node

/-- A stop of the walk: a declaration, or a node beyond the bound. -/
inductive Visit where
  | site (s : Site)
  | tooDeep

/-- How many levels of named nodes the walk goes into. -/
def maxLevels : Nat := 1000

/-- Each item with the one before it. -/
def withPrevious {α : Type} (before : Option α) : List α → List (Option α × α)
  | [] => []
  | a :: rest => (before, a) :: withPrevious (some a) rest

/-- Whether a declaration of this kind is extracted. -/
def isWanted (constructors : Bool) (kind : String) : Bool :=
  isMethodKind kind || (constructors && isConstructorKind kind)

/-- The stops of the walk below a node, with as many levels left as given. -/
def visits (constructors : Bool) : (levels : Nat) → List Node → Node → List Visit
  | 0, _, _ => [.tooDeep]
  | levels + 1, ancestors, node =>
    (withPrevious none node.namedChildren).flatMap fun (previous, child) =>
      (if isWanted constructors child.kind then [.site ⟨child, node :: ancestors, previous⟩] else [])
        ++ visits constructors levels (node :: ancestors) child

/-- The text of a node of this file. -/
def SourceFile.text (file : SourceFile) (n : Node) : Except MethodError String :=
  (n.text file.bytes).mapError .malformed

/-- The farthest a Javadoc comment may end above its declaration, in rows. -/
def maxJavadocGap : Int := 1

/-- The Javadoc comment of a declaration, with its text. -/
def attachedJavadoc? (file : SourceFile) (s : Site) : Except MethodError (Option (Node × String)) :=
  match s.previous with
  | none => return none
  | some sibling =>
    let gap : Int := (s.node.startRow file.bytes : Int) - sibling.endRow file.bytes
    if !isCommentKind sibling.kind || gap > maxJavadocGap then return none
    else do
      let text ← file.text sibling
      return if isJavadoc text.toList then some (sibling, text) else none

/-- The name of the nearest type declaration that has one. -/
def enclosingType? (file : SourceFile) : List Node → Except MethodError (Option String)
  | [] => return none
  | ancestor :: rest =>
    if isTypeKind ancestor.kind then
      match ancestor.childByRole? "name" with
      | some name => some <$> file.text name
      | none => enclosingType? file rest
    else enclosingType? file rest

/-- The package of a file: the name in its first package declaration that has one. -/
def packageName? (bytes : Bytes) (root : Node) : Except Utf8.Malformed (Option String) :=
  let isName (n : Node) : Bool := n.kind == "scoped_identifier" || n.kind == "identifier"
  let names := (root.namedChildren.filter (·.kind == "package_declaration")).filterMap
    fun declaration => declaration.namedChildren.find? isName
  match names with
  | [] => return none
  | name :: _ => some <$> name.text bytes

/-- What a site yields: an element, or a note that the declaration has no name. -/
inductive Finding where
  | element (e : Element)
  | unnamed (kind : String) (line : Nat)

/-- The elements among findings. -/
def Finding.element? : Finding → Option Element
  | .element e => some e
  | .unnamed .. => none

/-- The finding at a site. -/
def siteElement (file : SourceFile) (lines : List String) (package : Option String) (s : Site) :
    Except MethodError Finding := do
  let declarationLine := s.node.startRow file.bytes + 1
  match ← (signature? file.bytes s.node).mapError .malformed, s.node.childByRole? "name" with
  | some signature, some nameNode =>
    let name ← file.text nameNode
    let endLine := s.node.endRow file.bytes + 1
    let javadoc ← attachedJavadoc? file s
    let enclosingType ← enclosingType? file s.ancestors
    let startLine := match javadoc with
      | some (comment, _) => comment.startRow file.bytes + 1
      | none => declarationLine
    let element : Element := {
      name
      kind := .method
      signature := some signature
      documentation :=
        javadoc.bind fun (_, text) => (cleanJavadoc text.toList).map String.ofList
      declarationLine
      startLine
      endLine
      context := {
        filePath := file.filePath
        fileName := file.fileName
        package
        enclosingType
        snippet := Text.snippet lines startLine endLine } }
    return .element (← element.checked.mapError .lineRange)
  | _, _ => return .unnamed s.node.kind declarationLine

/-- The findings of a walk up to its first failure, and that failure. -/
structure Harvest where
  findings : List Finding := []
  failure : Option MethodError := none

/-- Take the findings of visits in order. -/
def gather (file : SourceFile) (lines : List String) (package : Option String) :
    List Visit → Harvest
  | [] => {}
  | .tooDeep :: _ => { failure := some .tooDeep }
  | .site s :: rest =>
    match siteElement file lines package s with
    | .error e => { failure := some e }
    | .ok finding =>
      let later := gather file lines package rest
      { later with findings := finding :: later.findings }

/-- The methods of a parsed file, with what stopped the walk if anything did. The whole source is
decoded before anything else. -/
def extractMethods (file : SourceFile) (root : Node) (constructors : Bool) : Harvest :=
  match Utf8.decode file.bytes, packageName? file.bytes root with
  | .error e, _ => { failure := some (.malformed e) }
  | .ok _, .error e => { failure := some (.malformed e) }
  | .ok text, .ok package =>
    gather file (Text.splitLines text) package (visits constructors maxLevels [] root)

/-- The elements of a harvest that nothing stopped. -/
def Harvest.elements (h : Harvest) : Except MethodError (List Element) :=
  match h.failure with
  | some e => .error e
  | none => .ok (h.findings.filterMap Finding.element?)

end Gleaner.Java
