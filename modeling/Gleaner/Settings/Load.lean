import Gleaner.FileSystem.Locate
import Gleaner.Json.Read
import Gleaner.Log.Record
import Gleaner.Settings

/-!
# Loading settings from a file

Files that end in `.json` are read as JSON, all others as YAML. A file that is missing, cannot be read,
breaks the rules of its format, is empty or holds something else than a map is refused in strict mode;
otherwise that is logged and the settings are the default ones. What goes wrong beyond that, such as
bytes that are no text, stops both modes.

The reader of YAML comes from outside, as a `YamlReader`. Nothing is said about it here: it gives a value,
or says that the text breaks the rules, or fails in some other way.

Main definitions: `ConfigProblem`, `LoadError`, `YamlReader`, `readConfig`, `loadConfig` and `loadSettings`.
-/

namespace Gleaner

/-- What strict mode refuses. -/
inductive ConfigProblem where
  | missing (path : Text)
  | unreadable (path : Text) (cause : OsError)
  | unparsable (path wording : Text)
  | empty (path : Text)
  | payload (typeName : String)
  | settings (path : Text) (cause : SettingsError)
deriving DecidableEq, Repr

/-- The wording of a problem. -/
def ConfigProblem.message : ConfigProblem → Text
  | .missing path => "Config file not found: " ++ path
  | .unreadable path e => "Failed to read config file " ++ path ++ ": " ++ e.message
  | .unparsable path wording => "Failed to parse config file " ++ path ++ ": " ++ wording
  | .empty path => "Config file is empty: " ++ path
  | .payload typeName => "Unexpected config payload type: " ++ typeName
  | .settings path e => "Invalid extraction config " ++ path ++ ": " ++ e.message

/-- Why YAML gives no value: the text breaks the rules of the format, or something else went wrong, which
has a name. Both have a wording. -/
inductive YamlError where
  | malformed (wording : Text)
  | raised (name : String) (wording : Text)
deriving DecidableEq, Repr

/-- A reader of YAML. -/
abbrev YamlReader := String → Except YamlError Value

/-- What stops loading: a problem, or a failure that no mode forgives. -/
inductive LoadError where
  | problem (cause : ConfigProblem)
  | path (cause : PathFault)
  | undecodable (cause : Utf8.Malformed)
  | json (cause : Json.ReadError)
  | yaml (name : String) (wording : Text)
deriving DecidableEq, Repr

/-- The wording of a failure. -/
def LoadError.message : LoadError → Text
  | .problem e => e.message
  | .path e => e.message
  | .undecodable e => e.message
  | .json e => e.message
  | .yaml _ wording => wording

/-- Text with every line end as a line feed. -/
def withLineFeeds : List Char → List Char
  | [] => []
  | '\r' :: '\n' :: rest => '\n' :: withLineFeeds rest
  | c :: rest => (if c = '\r' then '\n' else c) :: withLineFeeds rest

/-- Whether a file is read as JSON. -/
def isJsonPath (path : Text) : Bool :=
  Text.ofList (lowerCase (Path.suffix path).toList) = ".json"

/-- The value of a text in JSON. -/
def parseJson (path : Text) (text : String) : Except LoadError Value :=
  match Json.read text with
  | .ok v => .ok v
  | .error (.malformed cause position line column) =>
    let e := Json.ReadError.malformed cause position line column
    .error (.problem (.unparsable path e.message))
  | .error e => .error (.json e)

/-- The value of a text in YAML. -/
def parseYaml (yaml : YamlReader) (path : Text) (text : String) : Except LoadError Value :=
  match yaml text with
  | .ok v => .ok v
  | .error (.malformed wording) => .error (.problem (.unparsable path wording))
  | .error (.raised name wording) => .error (.yaml name wording)

/-- The value of a text, in the format that the path of its file says. -/
def parseConfig (yaml : YamlReader) (path : Text) (text : String) : Except LoadError Value :=
  if isJsonPath path then parseJson path text else parseYaml yaml path text

/-- The text of a file. -/
def readConfigText (fs : FileSystem) (path : Text) : Except LoadError String :=
  match pathFault? (Path.collapse path) with
  | some fault => .error (.path fault)
  | none =>
    match fs.readFile (Path.collapse path) with
    | .error e => .error (.problem (if e.cause = .missing then .missing path else .unreadable path e))
    | .ok bytes =>
      match Utf8.decode bytes with
      | .error e => .error (.undecodable e)
      | .ok text => .ok (String.ofList (withLineFeeds text.toList))

/-- The entries of the map in a file. -/
def readConfig (yaml : YamlReader) (fs : FileSystem) (path : Text) :
    Except LoadError (List (Value × Value)) := do
  let text ← readConfigText fs path
  match ← parseConfig yaml path text with
  | .map entries => return entries
  | .null => throw (.problem (.empty path))
  | v => throw (.problem (.payload v.typeName))

/-- A result and the records on the way to it. -/
structure Loaded (α : Type) where
  result : Except LoadError α
  records : List Log.Record := []

/-- Go on with a result, if there is one; the records stay. -/
def Loaded.andThen {α β : Type} (loaded : Loaded α) (next : α → Loaded β) : Loaded β :=
  match loaded.result with
  | .error e => ⟨.error e, loaded.records⟩
  | .ok a => ⟨(next a).result, loaded.records ++ (next a).records⟩

/-- The record of a problem that is passed over. -/
def ConfigProblem.logRecord (p : ConfigProblem) (logger : String) : Log.Record :=
  ⟨.warning, logger, p.message ++ "; continuing with defaults"⟩

/-- In strict mode a problem stays; otherwise it is logged and a default taken. -/
def forgive {α : Type} (strict : Bool) (logger : String) (default : α) : Except LoadError α → Loaded α
  | .error (.problem p) =>
    if strict then ⟨.error (.problem p), []⟩ else ⟨.ok default, [p.logRecord logger]⟩
  | result => ⟨result, []⟩

/-- The entries of the map in a file, by mode. -/
def loadConfig (yaml : YamlReader) (fs : FileSystem) (strict : Bool) (path : Text) :
    Loaded (List (Value × Value)) :=
  forgive strict "core.startup_config" [] (readConfig yaml fs path)

/-- The record of settings that were loaded. -/
def Settings.loadedRecord (s : Settings) (path : Text) : Log.Record :=
  ⟨.info, "extraction.config", "Loaded extraction config from " ++ path ++
    s!" ({s.excludedSegments.length} excluded segments, {s.extensions.length} extensions)"⟩

/-- The settings that entries give, by mode. -/
def settleEntries (strict : Bool) (path : Text) (entries : List (Value × Value)) : Loaded Settings :=
  match Settings.ofEntries entries with
  | .ok s => ⟨.ok s, [s.loadedRecord path]⟩
  | .error e => forgive strict "extraction.config" {} (.error (.problem (.settings path e)))

/-- The settings of a file; without a path the default ones. -/
def loadSettings (yaml : YamlReader) (fs : FileSystem) (strict : Bool) :
    (path : Option Text) → Loaded Settings
  | none => ⟨.ok {}, []⟩
  | some path => (loadConfig yaml fs strict path).andThen (settleEntries strict path)

end Gleaner
