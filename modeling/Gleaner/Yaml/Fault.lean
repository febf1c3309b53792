import Gleaner.Calendar
import Gleaner.Text.Quoted

/-!
# What can be wrong with YAML

Whatever breaks the rules of the format is one fault, whose wording is left open. The other faults come
from scalars that are written by the rules and yet have no value.
-/

namespace Gleaner.Yaml

/-- Why a text has no value. -/
inductive Fault where
  | malformed
  | tooDeep
  | codePoint (code : Nat)
  | calendar (cause : CalendarError)
  | timestamp
  | truth (text : String)
  | emptyNumber
  | integer (base : Nat) (text : String)
  | tooManyDigits (count : Nat)
  | number (text : String)
deriving DecidableEq, Repr

/-- The wording of a fault. -/
def Fault.message : Fault → String
  | .malformed => ""
  | .tooDeep => "maximum recursion depth exceeded"
  | .codePoint code =>
    if code < 0x80000000 then "chr() arg not in range(0x110000)"
    else "Python int too large to convert to C int"
  | .calendar cause => cause.message
  | .timestamp => "'NoneType' object has no attribute 'groupdict'"
  | .truth text => Text.quoted text
  | .emptyNumber => "string index out of range"
  | .integer base text => s!"invalid literal for int() with base {base}: {Text.quoted text}"
  | .tooManyDigits count =>
    s!"Exceeds the limit (4300 digits) for integer string conversion: value has {count} digits; " ++
      "use sys.set_int_max_str_digits() to increase the limit"
  | .number text => s!"could not convert string to float: {Text.quoted text}"

/-- The name of what a fault raises. -/
def Fault.name : Fault → String
  | .malformed => "YAMLError"
  | .tooDeep => "RecursionError"
  | .codePoint code => if code < 0x80000000 then "ValueError" else "OverflowError"
  | .calendar _ => "ValueError"
  | .timestamp => "AttributeError"
  | .truth _ => "KeyError"
  | .emptyNumber => "IndexError"
  | .integer _ _ => "ValueError"
  | .tooManyDigits _ => "ValueError"
  | .number _ => "ValueError"

end Gleaner.Yaml
