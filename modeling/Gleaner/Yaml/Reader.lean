import Gleaner.Settings.Load
import Gleaner.Yaml.Read

/-!
# A reader of YAML

The reader that the program is run with.
-/

namespace Gleaner.Yaml

/-- What a fault is to those who ask for a value. -/
def Fault.error (fault : Fault) : YamlError :=
  match fault with
  | .malformed => .malformed fault.message
  | _ => .raised fault.name fault.message

/-- Read one document. -/
def reader : YamlReader :=
  fun text => (read text).mapError Fault.error

end Gleaner.Yaml
