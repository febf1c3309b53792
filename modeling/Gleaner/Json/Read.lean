import Gleaner.Data.Value
import Gleaner.Text.Utf16

/-!
# Reading JSON

Reading goes once over the text. Besides the standard it takes `NaN`, `Infinity` and `-Infinity`; a key
that comes again replaces the value of the first. A failure says what was expected and where, counted in
characters, and in lines and columns.

Integers of more than 4300 digits are refused, and so are lists and maps nested too deeply.

Main definitions: `ReadCause`, `ReadError` and `read`.
-/

namespace Gleaner.Json

open Gleaner.Utf16

/-- What is wrong at a place in the text. -/
inductive ReadCause where
  | byteOrderMark
  | value
  | propertyName
  | colon
  | comma
  | extraData
  | control
  | unterminated
  | escape
  | unicodeEscape
deriving DecidableEq, Repr

/-- The wording of a cause. -/
def ReadCause.message : ReadCause → String
  | .byteOrderMark => "Unexpected UTF-8 BOM (decode using utf-8-sig)"
  | .value => "Expecting value"
  | .propertyName => "Expecting property name enclosed in double quotes"
  | .colon => "Expecting ':' delimiter"
  | .comma => "Expecting ',' delimiter"
  | .extraData => "Extra data"
  | .control => "Invalid control character at"
  | .unterminated => "Unterminated string starting at"
  | .escape => "Invalid \\escape"
  | .unicodeEscape => "Invalid \\uXXXX escape"

/-- Why reading stops: a cause with the text from its place on, or a limit. -/
inductive Stop where
  | at (cause : ReadCause) (rest : List Char)
  | tooManyDigits (count : Nat)
  | tooDeep
deriving DecidableEq, Repr

/-- What reading gives, with the text after it. -/
abbrev Reading (α : Type) := Except Stop (α × List Char)

/-- The blanks between the parts of a text. -/
def isGap (c : Char) : Bool :=
  c = ' ' || c = '\t' || c = '\n' || c = '\r'

/-- Leave out blanks. -/
def skipGap (cs : List Char) : List Char :=
  cs.dropWhile isGap

/-! ## Strings -/

/-- Four hexadecimal digits with more text after them. -/
def readUnit? : List Char → Option (Nat × List Char)
  | a :: b :: c :: d :: e :: rest => do
    let unit := (((← hexValue? a) * 16 + (← hexValue? b)) * 16 + (← hexValue? c)) * 16 + (← hexValue? d)
    return (unit, e :: rest)
  | _ => none

/-- The character of a short escape. -/
def unescape? (c : Char) : Option Char :=
  if c = '"' then some '"'
  else if c = '\\' then some '\\'
  else if c = '/' then some '/'
  else if c = 'b' then some '\x08'
  else if c = 'f' then some '\x0c'
  else if c = 'n' then some '\n'
  else if c = 'r' then some '\r'
  else if c = 't' then some '\t'
  else none

/-- The second unit of a pair, if one follows. Whatever is escaped as a unit has to be one. -/
def readLow : List Char → Reading (Option Nat)
  | '\\' :: 'u' :: rest =>
    match readUnit? rest with
    | none => .error (.at .unicodeEscape ('u' :: rest))
    | some (unit, left) =>
      if isLow unit then .ok (some unit, left) else .ok (none, '\\' :: 'u' :: rest)
  | cs => .ok (none, cs)

/-- Read an escape from after its backslash, in a string that starts at `start`. -/
def readEscape (start : List Char) : List Char → Reading CodePoint
  | [] => .error (.at .unterminated start)
  | c :: rest =>
    if c = 'u' then
      match readUnit? rest with
      | none => .error (.at .unicodeEscape (c :: rest))
      | some (unit, left) =>
        if isHigh unit then
          match readLow left with
          | .error e => .error e
          | .ok (some low, left) => .ok (pairChar unit low, left)
          | .ok (none, left) => .ok (unitPoint unit, left)
        else .ok (unitPoint unit, left)
    else
      match unescape? c with
      | some d => .ok (d, rest)
      | none => .error (.at .escape ('\\' :: c :: rest))

theorem readUnit?_length {cs rest : List Char} {unit : Nat} (h : readUnit? cs = some (unit, rest)) :
    rest.length < cs.length := by
  unfold readUnit? at h
  split at h
  · simp only [Option.bind_eq_bind, Option.bind_eq_some_iff, Option.pure_def, Option.some.injEq,
      Prod.mk.injEq] at h
    obtain ⟨_, _, _, _, _, _, _, _, _, rfl⟩ := h
    simp only [List.length_cons]
    omega
  · simp at h

theorem readLow_length {cs rest : List Char} {low : Option Nat} (h : readLow cs = .ok (low, rest)) :
    rest.length ≤ cs.length := by
  unfold readLow at h
  split at h
  · split at h
    · simp at h
    · next hu =>
      split at h
      · simp only [Except.ok.injEq, Prod.mk.injEq] at h
        have := readUnit?_length hu
        simp only [List.length_cons, ← h.2]
        omega
      · simp only [Except.ok.injEq, Prod.mk.injEq] at h
        simp [← h.2]
  · simp only [Except.ok.injEq, Prod.mk.injEq] at h
    simp [← h.2]

theorem readEscape_length {start cs rest : List Char} {c : CodePoint}
    (h : readEscape start cs = .ok (c, rest)) : rest.length < cs.length := by
  unfold readEscape at h
  split at h
  · simp at h
  · split at h
    · split at h
      · simp at h
      · next hu =>
        have := readUnit?_length hu
        split at h
        · split at h
          · simp at h
          · next hl =>
            have := readLow_length hl
            simp only [Except.ok.injEq, Prod.mk.injEq] at h
            simp only [List.length_cons, ← h.2]
            omega
          · next hl =>
            have := readLow_length hl
            simp only [Except.ok.injEq, Prod.mk.injEq] at h
            simp only [List.length_cons, ← h.2]
            omega
        · simp only [Except.ok.injEq, Prod.mk.injEq] at h
          simp only [List.length_cons, ← h.2]
          omega
    · split at h
      · simp only [Except.ok.injEq, Prod.mk.injEq] at h
        simp [← h.2]
      · simp at h

/-- Read a string from after its opening quote; `start` is the text from that quote on, and `done` what
was read so far, last first. -/
def readString (start : List Char) (done : List CodePoint) (cs : List Char) : Reading Text :=
  match cs with
  | [] => .error (.at .unterminated start)
  | c :: rest =>
    if c = '"' then .ok (Text.ofList done.reverse, rest)
    else if c = '\\' then
      match h : readEscape start rest with
      | .error e => .error e
      | .ok (d, left) =>
        have := readEscape_length h
        readString start (d :: done) left
    else if c.toNat < 0x20 then .error (.at .control cs)
    else readString start (c :: done) rest
termination_by cs.length

/-! ## Numbers and literals -/

/-- Whether a character is a decimal digit. -/
def isDigit (c : Char) : Bool :=
  '0' ≤ c && c ≤ '9'

/-- The minus sign, if there is one. -/
def signPart : List Char → List Char
  | '-' :: _ => ['-']
  | _ => []

/-- The digits before the point: one zero, or digits that start with none. -/
def wholeDigits : List Char → List Char
  | [] => []
  | c :: rest => if c = '0' then ['0'] else if isDigit c then c :: rest.takeWhile isDigit else []

/-- The point and the digits after it, if there are any. -/
def fractionPart : List Char → List Char
  | '.' :: rest =>
    match rest.takeWhile isDigit with
    | [] => []
    | digits => '.' :: digits
  | _ => []

/-- The exponent, if it has digits. -/
def exponentPart : List Char → List Char
  | [] => []
  | e :: rest =>
    if e = 'e' || e = 'E' then
      let sign := match rest with
        | c :: _ => if c = '+' || c = '-' then [c] else []
        | [] => []
      match (rest.drop sign.length).takeWhile isDigit with
      | [] => []
      | digits => e :: sign ++ digits
    else []

/-- Read a number. -/
def readNumber (cs : List Char) : Reading Value :=
  let sign := signPart cs
  let whole := wholeDigits (cs.drop sign.length)
  if whole.isEmpty then .error (.at .value cs)
  else
    let after := cs.drop (sign.length + whole.length)
    let fraction := fractionPart after
    let exponent := exponentPart (after.drop fraction.length)
    let rest := after.drop (fraction.length + exponent.length)
    if fraction.isEmpty && exponent.isEmpty then
      if whole.length > maxDigits then .error (.tooManyDigits whole.length)
      else
        let n : Int := Binary64.digitsValue whole
        .ok (.int (if sign.isEmpty then n else -n), rest)
    else
      match Binary64.read? (sign ++ whole ++ fraction ++ exponent) with
      | some x => .ok (.float x, rest)
      | none => .error (.at .value cs)

/-- The words for values. -/
def literals : List (List Char × Value) := [
  ("null".toList, .null),
  ("true".toList, .bool true),
  ("false".toList, .bool false),
  ("NaN".toList, .float .nan),
  ("Infinity".toList, .float (.infinite false)),
  ("-Infinity".toList, .float (.infinite true))]

/-- Read a word or a number. -/
def readScalar (cs : List Char) : Reading Value :=
  match literals.find? fun literal => literal.1.isPrefixOf cs with
  | some (word, value) => .ok (value, cs.drop word.length)
  | none => readNumber cs

/-! ## Values -/

/-- How deep lists and maps may be nested. -/
def maxDepth : Nat := 985

mutual

/-- Read a value; `depth` is how many more levels there may be. -/
def readValue : (fuel depth : Nat) → List Char → Reading Value
  | 0, _, cs => .error (.at .value cs)
  | fuel + 1, depth, cs =>
    match cs with
    | '"' :: rest => (readString cs [] rest).map fun (s, left) => (.text s, left)
    | '[' :: rest =>
      match depth with
      | 0 => .error .tooDeep
      | depth + 1 =>
        match skipGap rest with
        | ']' :: left => .ok (.list [], left)
        | left => readItems fuel depth [] left
    | '\x7b' :: rest =>
      match depth with
      | 0 => .error .tooDeep
      | depth + 1 =>
        match skipGap rest with
        | '\x7d' :: left => .ok (.map [], left)
        | left => readEntries fuel depth [] left
    | _ => readScalar cs

/-- Read the items of a list from the next one on; those before are in `done`, last first. -/
def readItems : (fuel depth : Nat) → (done : List Value) → List Char → Reading Value
  | 0, _, _, cs => .error (.at .value cs)
  | fuel + 1, depth, done, cs =>
    match readValue fuel depth cs with
    | .error e => .error e
    | .ok (v, left) =>
      match skipGap left with
      | ']' :: rest => .ok (.list (v :: done).reverse, rest)
      | ',' :: rest => readItems fuel depth (v :: done) (skipGap rest)
      | rest => .error (.at .comma rest)

/-- Read the entries of a map from the next one on; those before are in `done`. -/
def readEntries : (fuel depth : Nat) → (done : List (Value × Value)) → List Char → Reading Value
  | 0, _, _, cs => .error (.at .value cs)
  | fuel + 1, depth, done, cs =>
    match cs with
    | '"' :: rest =>
      match readString cs [] rest with
      | .error e => .error e
      | .ok (key, left) =>
        match skipGap left with
        | ':' :: rest =>
          match readValue fuel depth (skipGap rest) with
          | .error e => .error e
          | .ok (v, left) =>
            let done := Value.insertEntry (.text key) v done
            match skipGap left with
            | '\x7d' :: rest => .ok (.map done, rest)
            | ',' :: rest => readEntries fuel depth done (skipGap rest)
            | rest => .error (.at .comma rest)
        | rest => .error (.at .colon rest)
    | _ => .error (.at .propertyName cs)

end

/-! ## Texts -/

/-- Why a text cannot be read. -/
inductive ReadError where
  | malformed (cause : ReadCause) (position line column : Nat)
  | tooManyDigits (count : Nat)
  | tooDeep
deriving DecidableEq, Repr

/-- The wording of a failure. -/
def ReadError.message : ReadError → String
  | .malformed cause position line column =>
    s!"{cause.message}: line {line} column {column} (char {position})"
  | .tooManyDigits count =>
    s!"Exceeds the limit ({maxDigits} digits) for integer string conversion: value has {count} digits; " ++
      "use sys.set_int_max_str_digits() to increase the limit"
  | .tooDeep => "maximum recursion depth exceeded"

/-- A failure placed in the text it happened in. -/
def Stop.inText (text : List Char) : Stop → ReadError
  | .at cause rest =>
    let before := text.take (text.length - rest.length)
    .malformed cause before.length ((before.filter (· = '\n')).length + 1)
      ((before.reverse.takeWhile (· ≠ '\n')).length + 1)
  | .tooManyDigits count => .tooManyDigits count
  | .tooDeep => .tooDeep

/-- Read a whole text, blanks around the value left out. -/
def readAll (cs : List Char) : Except Stop Value :=
  match cs with
  | '\ufeff' :: _ => .error (.at .byteOrderMark cs)
  | _ =>
    match readValue (2 * cs.length + 2) maxDepth (skipGap cs) with
    | .error e => .error e
    | .ok (v, left) =>
      match skipGap left with
      | [] => .ok v
      | rest => .error (.at .extraData rest)

/-- The value that a text holds. -/
def read (text : String) : Except ReadError Value :=
  (readAll text.toList).mapError (·.inText text.toList)

end Gleaner.Json
