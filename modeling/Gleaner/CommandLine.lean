import Gleaner.Log.Record
import Gleaner.Text.Basic
import Gleaner.Text.Blank
import Gleaner.Text.Digit
import Gleaner.Text.Quoted

/-!
# The command line

Arguments are sorted first: what starts with a dash is an option, unless it is a number or has a blank,
and after two dashes nothing is an option. Long options may be shortened to a start that no other option
has, and may bring their value after an equals sign. Then arguments are taken from left to right. What
is left over, and a missing source directory, are usage errors; of the two the latter is told.

Main definitions: `Flag`, `classify`, `Arguments`, `Usage` and `parseArguments`.
-/

namespace Gleaner.CommandLine

/-- The options. -/
inductive Flag where
  | help
  | outputFile
  | errorLog
  | config
  | strictConfig
  | includeConstructors
  | reportDir
  | logFile
  | logLevel
deriving DecidableEq, Repr

/-- The names of the options, in order. -/
def flagNames : List (Text × Flag) := [
  ("-h", .help),
  ("--help", .help),
  ("--output-file", .outputFile),
  ("--error-log", .errorLog),
  ("--config", .config),
  ("--strict-config", .strictConfig),
  ("--include-constructors", .includeConstructors),
  ("--report-dir", .reportDir),
  ("--log-file", .logFile),
  ("--log-level", .logLevel)]

/-- All names of an option. -/
def Flag.label (f : Flag) : Text :=
  Text.join "/" ((flagNames.filter (·.2 = f)).map Prod.fst)

/-- Whether an option takes a value. -/
def Flag.takesValue : Flag → Bool
  | .help | .strictConfig | .includeConstructors => false
  | _ => true

/-- The levels that may be chosen. -/
def levelNames : List Text := ["DEBUG", "INFO", "WARNING", "ERROR"]

/-- What is wrong with arguments. -/
inductive UsageError where
  | ambiguous (argument : Text) (candidates : List Text)
  | expectedValue (flag : Flag)
  | ignoredValue (flag : Flag) (value : Text)
  | invalidLevel (value : Text)
  | sourceRequired
  | unrecognized (arguments : List Text)
deriving DecidableEq, Repr

/-- The wording of a usage error. -/
def UsageError.message : UsageError → Text
  | .ambiguous argument candidates =>
    "ambiguous option: " ++ argument ++ " could match " ++ Text.join (", " : Text) candidates
  | .expectedValue flag => "argument " ++ flag.label ++ ": expected one argument"
  | .ignoredValue flag value =>
    "argument " ++ flag.label ++ ": ignored explicit argument " ++ Text.quoted value
  | .invalidLevel value =>
    let names := Text.join ", " (levelNames.map Text.quoted)
    "argument " ++ Flag.logLevel.label ++
      s!": invalid choice: {Text.quoted value} (choose from {names})"
  | .sourceRequired => "the following arguments are required: source_dir"
  | .unrecognized arguments =>
    "unrecognized arguments: " ++ Text.join (" " : Text) arguments

/-! ## Sorting arguments -/

/-- The text that an argument has after the name of its option. -/
inductive Attached where
  | nothing
  /-- What stands after an equals sign. -/
  | value (text : Text)
  /-- What stands right after an option of one letter. -/
  | letters (text : List CodePoint)
deriving DecidableEq, Repr

/-- What an argument is. -/
inductive Role where
  | positional
  /-- Two dashes: no options come after. -/
  | divider
  /-- An option by the name it was given or stands for, with what is part of the same argument. -/
  | option (flag : Flag) (name : Text) (attached : Attached)
  | unknown
deriving DecidableEq, Repr

/-- An argument and what it is. -/
structure Argument where
  text : Text
  role : Role
deriving DecidableEq, Repr

/-- The text before the first equals sign, and the text after it if there is one. -/
def splitEquals (argument : Text) : Text × Attached :=
  let cs := argument.toList
  let head := cs.takeWhile (· ≠ .char '=')
  match cs.drop head.length with
  | [] => (argument, .nothing)
  | _ :: rest => (Text.ofList head, .value (Text.ofList rest))

/-- The options that an argument with two dashes may stand for. -/
def longCandidates (argument : Text) : List Role :=
  let (start, value) := splitEquals argument
  (flagNames.filter fun (name, _) => start.toList.isPrefixOf name.toList).map
    fun (name, flag) => .option flag name value

/-- The options that an argument with one dash may stand for. -/
def shortCandidates (argument : Text) : List Role :=
  let cs := argument.toList
  flagNames.filterMap fun (name, flag) =>
    if name.toList = cs.take 2 then some (.option flag name (.letters (cs.drop 2)))
    else if cs.isPrefixOf name.toList then some (.option flag name .nothing)
    else none

/-- The options that an argument may stand for. -/
def candidates (argument : Text) : List Role :=
  match argument.toList with
  | _ :: .char '-' :: _ => longCandidates argument
  | _ => shortCandidates argument

/-- The name of an option. -/
def Role.name? : Role → Option Text
  | .option _ name _ => some name
  | _ => none

/-- Whether a text is one or more digits, with at most a line end after them. -/
def isDigits (cs : List CodePoint) : Bool :=
  let digits := cs.takeWhile (·.isIn Text.isDecimal)
  !digits.isEmpty && [[], [.char '\n']].contains (cs.drop digits.length)

/-- Whether an argument is a negative number. -/
def isNegativeNumber : List CodePoint → Bool
  | .char '-' :: rest =>
    isDigits rest ||
      match rest.dropWhile (·.isIn Text.isDecimal) with
      | .char '.' :: fraction => isDigits fraction
      | _ => false
  | _ => false

/-- What an argument that is not two dashes is. -/
def roleOf (argument : Text) : Except UsageError Role :=
  match argument.toList with
  | [] => .ok .positional
  | [.char '-'] => .ok .positional
  | .char '-' :: _ =>
    match flagNames.lookup argument with
    | some flag => .ok (.option flag argument .nothing)
    | none =>
      let (head, attached) := splitEquals argument
      match flagNames.lookup head with
      | some flag => .ok (.option flag head attached)
      | none =>
        match candidates argument with
        | [role] => .ok role
        | [] =>
          if isNegativeNumber argument.toList || argument.toList.contains ' ' then .ok .positional
          else .ok .unknown
        | roles => .error (.ambiguous argument (roles.filterMap Role.name?))
  | _ => .ok .positional

/-- Sort arguments. -/
def classify : List Text → Except UsageError (List Argument)
  | [] => .ok []
  | argument :: rest =>
    if argument = "--" then .ok (⟨argument, .divider⟩ :: rest.map (⟨·, .positional⟩))
    else do
      let role ← roleOf argument
      return ⟨argument, role⟩ :: (← classify rest)

/-! ## Taking arguments -/

/-- What the arguments say. -/
structure Arguments where
  sourceDir : Text
  outputFile : Text := "output.json"
  errorLog : Text := "errors.log"
  config : Option Text := none
  strictConfig : Bool := false
  includeConstructors : Bool := false
  reportDir : Option Text := none
  logFile : Option Text := none
  logLevel : Log.Level := .info
deriving DecidableEq, Repr

/-- The arguments taken so far. -/
structure Taken where
  source : Option Text := none
  extras : List Text := []
  arguments : Arguments

/-- Why the program does not run. -/
inductive Usage where
  | help
  | error (cause : UsageError)
deriving DecidableEq, Repr

/-- Take an option that has no value. -/
def Taken.set (t : Taken) : Flag → Except Usage Taken
  | .help => .error .help
  | .strictConfig => .ok { t with arguments := { t.arguments with strictConfig := true } }
  | .includeConstructors => .ok { t with arguments := { t.arguments with includeConstructors := true } }
  | flag => .error (.error (.expectedValue flag))

/-- Take an option with its value. -/
def Taken.setValue (t : Taken) (flag : Flag) (value : Text) : Except Usage Taken :=
  match flag with
  | .outputFile => .ok { t with arguments := { t.arguments with outputFile := value } }
  | .errorLog => .ok { t with arguments := { t.arguments with errorLog := value } }
  | .config => .ok { t with arguments := { t.arguments with config := some value } }
  | .reportDir => .ok { t with arguments := { t.arguments with reportDir := some value } }
  | .logFile => .ok { t with arguments := { t.arguments with logFile := some value } }
  | .logLevel =>
    match Log.Level.ofName? value with
    | some level =>
      if levelNames.contains value then .ok { t with arguments := { t.arguments with logLevel := level } }
      else .error (.error (.invalidLevel value))
    | none => .error (.error (.invalidLevel value))
  | flag => .error (.error (.ignoredValue flag value))

/-- The options of one letter that stand side by side, the first of them given, and the text from the
first letter on that is no option. A dash, and a value after an equals sign, are refused. -/
def oneLetterFlags (flag : Flag) : List CodePoint → Except UsageError (List Flag × List CodePoint)
  | [] => .ok ([flag], [])
  | letter :: rest =>
    if letter = .char '-' then .error (.ignoredValue flag (Text.ofList (letter :: rest)))
    else
      match flagNames.lookup (Text.ofList [.char '-', letter]), rest with
      | none, _ => .ok ([flag], letter :: rest)
      | some next, .char '=' :: value => .error (.ignoredValue next (Text.ofList value))
      | some next, _ => do
        let (flags, others) ← oneLetterFlags next rest
        return (flag :: flags, others)

/-- Take options of one letter that stand side by side. What is no option is left over. -/
def Taken.setLetters (t : Taken) (flag : Flag) (letters : List CodePoint) : Except Usage Taken := do
  let (flags, others) ← (oneLetterFlags flag letters).mapError .error
  let extras := if others.isEmpty then [] else [Text.ofList (.char '-' :: others)]
  flags.foldlM Taken.set { t with extras := t.extras ++ extras }

/-- Take arguments from left to right. -/
def take : Taken → List Argument → Except Usage Taken
  | t, [] => .ok t
  | t, ⟨text, role⟩ :: rest =>
    match role with
    | .positional =>
      match t.source with
      | none => take { t with source := some text } (rest.dropWhile (·.role = .divider))
      | some _ => take { t with extras := t.extras ++ [text] } rest
    | .divider =>
      if t.source.isNone && !rest.isEmpty then take t rest
      else take { t with extras := t.extras ++ [text] } rest
    | .unknown => take { t with extras := t.extras ++ [text] } rest
    | .option flag _ (.value value) => do take (← t.setValue flag value) rest
    | .option flag _ (.letters letters) => do take (← t.setLetters flag letters) rest
    | .option flag _ .nothing =>
      if flag.takesValue then
        match _h : rest with
        | ⟨value, .positional⟩ :: more => do take (← t.setValue flag value) more
        | _ => .error (.error (.expectedValue flag))
      else do take (← t.set flag) rest
termination_by _ arguments => arguments.length
decreasing_by
  · exact Nat.lt_succ_of_le (List.dropWhile_suffix _).length_le
  all_goals
    subst_vars
    simp only [List.length_cons]
    omega

/-- What the arguments say; strictness may be on from the start. -/
def parseArguments (strict : Bool) (arguments : List Text) : Except Usage Arguments := do
  let sorted ← (classify arguments).mapError .error
  let t ← take { arguments := { sourceDir := "", strictConfig := strict } } sorted
  match t.source with
  | none => .error (.error .sourceRequired)
  | some sourceDir =>
    if t.extras.isEmpty then return { t.arguments with sourceDir }
    else .error (.error (.unrecognized t.extras))

end Gleaner.CommandLine
