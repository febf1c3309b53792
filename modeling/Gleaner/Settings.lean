import Gleaner.Data.Value
import Gleaner.Text.Blank

/-!
# Settings

What a run can be told: which path segments exclude a file, which extensions belong to which extractor,
and whether constructors are wanted. Settings come from the entries of a configuration; what an entry
does not say has its default, and an entry of the wrong shape refuses the whole configuration.

Main definitions: `Settings`, `Settings.ofEntries`, `Settings.kindFor?` and `isOn`.
-/

namespace Gleaner

/-- Which extractor handles a file. -/
inductive SourceKind where
  | java
  | schema
deriving DecidableEq, Repr

/-- The written name of an extractor. -/
def SourceKind.name : SourceKind → String
  | .java => "java"
  | .schema => "schema"

/-- The extractor with a written name. -/
def SourceKind.ofName? (name : Text) : Option SourceKind :=
  [.java, .schema].find? (·.name = name)

/-- The settings of a run. -/
structure Settings where
  excludedSegments : List Text := [
    "build", "target", "out", "gradle/wrapper", "generated-sources", "generated", ".git", ".idea",
    ".vscode"]
  extensions : List (Text × SourceKind) := [(".java", .java), (".proto", .schema)]
  includeConstructors : Bool := false
deriving DecidableEq, Repr

/-- The extractor for a file name: that of the first extension the name ends in. -/
def Settings.kindFor? (settings : Settings) (fileName : Text) : Option SourceKind :=
  (settings.extensions.find? fun (extension, _) =>
    extension.toList.isSuffixOf fileName.toList).map Prod.snd

/-- Why a configuration is refused. -/
inductive SettingsError where
  | segmentsNotList
  | extensionsNotMap
  | unknownKind (extension kind : Text)
  | tooManyDigits
deriving DecidableEq, Repr

/-- The wording of a settings error. -/
def SettingsError.message : SettingsError → Text
  | .segmentsNotList => "excluded_segments must be a list"
  | .extensionsNotMap => "extensions must be a mapping of extension to kind"
  | .unknownKind extension kind => "extension '" ++ extension ++ "' has unknown kind '" ++ kind ++ "'"
  | .tooManyDigits =>
    s!"Exceeds the limit ({maxDigits} digits) for integer string conversion; " ++
      "use sys.set_int_max_str_digits() to increase the limit"

/-- Lower case, for words whose letters all are plain ones. -/
def lowerCase (cs : List CodePoint) : List CodePoint :=
  cs.map fun
    | .char c => .char c.toLower
    | c => c

/-- Drop the members of a class on both sides. -/
def strip (p : CodePoint → Bool) (cs : List CodePoint) : List CodePoint :=
  Text.dropEnd p (cs.dropWhile p)

/-- Drop blanks on both sides. -/
def stripBlanks (cs : List CodePoint) : List CodePoint :=
  strip (·.isIn Text.isBlank) cs

/-- Drop slashes on both sides. -/
def stripSlashes (cs : List CodePoint) : List CodePoint :=
  strip (· = .char '/') cs

/-- A segment in its normal form: no blanks or slashes around it, and slashes only. -/
def normalSegment (raw : Value) : Text :=
  .ofList (stripSlashes ((stripBlanks raw.plain.toList).map fun c =>
    if c = .char '\\' then .char '/' else c))

/-- The excluded segments in a list; those that come to nothing are dropped. -/
def segmentsOf (items : List Value) : List Text :=
  (items.map normalSegment).filter (!·.isEmpty)

/-- An extension in its normal form: no blanks around it, and a dot in front. -/
def normalExtension (raw : Value) : Text :=
  let text := stripBlanks raw.plain.toList
  .ofList (if [CodePoint.char '.'].isPrefixOf text then text else .char '.' :: text)

/-- The extractor that a value names. -/
def kindOf? (raw : Value) : Option SourceKind :=
  SourceKind.ofName? (.ofList (lowerCase (stripBlanks raw.plain.toList)))

/-- Set the extractor of an extension, in its place if it is there. -/
def setExtension (extension : Text) (kind : SourceKind) :
    List (Text × SourceKind) → List (Text × SourceKind)
  | [] => [(extension, kind)]
  | (e, k) :: rest =>
    if e = extension then (e, kind) :: rest else (e, k) :: setExtension extension kind rest

/-- Add the extensions of entries to those already there. -/
def extensionsFrom (known : List (Text × SourceKind)) :
    List (Value × Value) → Except SettingsError (List (Text × SourceKind))
  | [] => .ok known
  | (rawExtension, rawKind) :: rest =>
    if rawExtension.hasText && rawKind.hasText then
      let extension := normalExtension rawExtension
      match kindOf? rawKind with
      | none => .error (.unknownKind extension rawKind.plain)
      | some kind => extensionsFrom (setExtension extension kind known) rest
    else .error .tooManyDigits

/-- The excluded segments that entries ask for. -/
def segmentsSetting (entries : List (Value × Value)) : Except SettingsError (List Text) :=
  match Value.lookup? "excluded_segments" entries with
  | none => .ok ({} : Settings).excludedSegments
  | some (.list items) =>
    if Value.haveText items then .ok (segmentsOf items) else .error .tooManyDigits
  | some _ => .error .segmentsNotList

/-- The extensions that entries ask for. -/
def extensionsSetting (entries : List (Value × Value)) :
    Except SettingsError (List (Text × SourceKind)) :=
  match Value.lookup? "extensions" entries with
  | none => .ok ({} : Settings).extensions
  | some (.map inner) => extensionsFrom [] inner
  | some _ => .error .extensionsNotMap

/-- Whether entries ask for constructors. -/
def constructorsSetting (entries : List (Value × Value)) : Bool :=
  match Value.lookup? "include_constructors" entries with
  | none => false
  | some v => v.truth

/-- The settings of a configuration. Segments are looked at before extensions. -/
def Settings.ofEntries (entries : List (Value × Value)) : Except SettingsError Settings := do
  let excludedSegments ← segmentsSetting entries
  let extensions ← extensionsSetting entries
  return { excludedSegments, extensions, includeConstructors := constructorsSetting entries }

/-- Whether the text of a switch in the environment turns it on. -/
def isOn (text : Text) : Bool :=
  (["1", "true", "yes", "on"] : List Text).contains (.ofList (lowerCase (stripBlanks text.toList)))

/-- A switch in the environment, or its default where it is not set. -/
def switch (value : Option Text) (default : Bool) : Bool :=
  match value with
  | none => default
  | some text => isOn text

end Gleaner
