import Gleaner.Text.Basic

/-!
# The help text

What the program tells about itself, for a width of eighty columns.
-/

namespace Gleaner.CommandLine

/-- The lines about how to call the program. -/
def usageLines : List String := [
  "usage: run_extraction.py [-h] [--output-file OUTPUT_FILE]",
  "                         [--error-log ERROR_LOG] [--config CONFIG]",
  "                         [--strict-config] [--include-constructors]",
  "                         [--report-dir REPORT_DIR] [--log-file LOG_FILE]",
  "                         [--log-level \x7bDEBUG,INFO,WARNING,ERROR\x7d]",
  "                         source_dir"]

/-- The lines of the help text. -/
def helpLines : List String := usageLines ++ [
  "",
  "Extract Java methods and proto message/enum blocks as JSON",
  "",
  "positional arguments:",
  "  source_dir            Root directory of the project to extract from.",
  "",
  "options:",
  "  -h, --help            show this help message and exit",
  "  --output-file OUTPUT_FILE",
  "                        Path for the JSON element output. Default: output.json",
  "  --error-log ERROR_LOG",
  "                        Path for the diagnostics log. Default: errors.log",
  "  --config CONFIG       Optional YAML/JSON extraction config",
  "                        (excluded_segments, extensions, ...).",
  "  --strict-config       Fail instead of falling back to defaults when the",
  "                        config file is invalid.",
  "  --include-constructors",
  "                        Also emit Java constructors as Method elements.",
  "  --report-dir REPORT_DIR",
  "                        If set, write a JSON run report with counts into this",
  "                        directory.",
  "  --log-file LOG_FILE   If set, also write run logs to this file.",
  "  --log-level \x7bDEBUG,INFO,WARNING,ERROR\x7d",
  "                        Logging verbosity. Default: INFO",
  "",
  "Examples:",
  "  python run_extraction.py ./my-project",
  "  python run_extraction.py ./my-project --output-file out/elements.json"]

/-- The text with a line end after each line. -/
def asText (lines : List String) : String :=
  String.join (lines.map (· ++ "\n"))

/-- The help text. -/
def helpText : String :=
  asText helpLines

/-- The text about a usage error. -/
def usageText (message : Text) : Text :=
  Text.ofString (asText usageLines ++ "run_extraction.py: error: ") ++ message ++ "\n"

end Gleaner.CommandLine
