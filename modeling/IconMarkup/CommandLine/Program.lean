import IconMarkup.CommandLine.ArgumentReader
import IconMarkup.CommandLine.Scanning

/-!
# The program

A run of the program from its command line: the arguments are read, the settings are loaded, merged
with those of the command line and checked, and then the command runs. What fails before the command
leaves the standard output empty and the files untouched.
-/

namespace IconMarkup.CommandLine

open IconMarkup.Config IconMarkup.Files

/-- The notices about loaded settings. -/
def loadedNotices (arguments : Arguments) (loaded : Loaded) : List Notice :=
  match loaded.path with
  | none =>
    [.detail .config ("no " ++ arguments.config.toString ++ " found, using defaults")]
  | some path =>
    let name := path.fileName?.getD path.toString
    let unknown : List Notice :=
      if loaded.unknown.isEmpty then []
      else .log .warning ("unknown fields in " ++ name ++ ", ignoring:") ::
        loaded.unknown.map .field
    unknown ++ [.detail .config ("loaded " ++ path.toString)]

/-- Runs the command of the arguments. -/
def runCommand (arguments : Arguments) (settings : Settings) (sources : Sources)
    (schedule : Schedule) : Outcome :=
  match arguments.command with
  | .render arguments => runRender arguments settings sources schedule
  | .scan arguments => runScan arguments settings sources

/-- Runs what the arguments ask for. -/
def run (arguments : Arguments) (sources : Sources) (schedule : Schedule) : Outcome :=
  let failed (cause : Config.Failure) : Outcome :=
    { failure := some (.settings cause), files := sources.files }
  match load sources.files arguments.config !arguments.usesDefaultConfig with
  | .error cause => failed cause
  | .ok loaded =>
    let icons := arguments.icons
    let settings := loaded.settings.override icons.classPrefix icons.classes
    let outcome := match settings.validate with
      | .error cause => failed cause
      | .ok () => runCommand arguments settings sources schedule
    outcome.after (loadedNotices arguments loaded)

/-- The name and the version of the program. -/
def versionText : String := "fa-shortcode 0.1.0\n"

/-- The help text of the program. -/
def helpText : String :=
  String.intercalate "\n" [
    "Rewrite Font Awesome shortcodes (:fa-solid:coffee:) into icon markup",
    "",
    "Usage: fa-shortcode [OPTIONS] <COMMAND>",
    "",
    "Commands:",
    "  render, r  Render documents with shortcodes replaced by icon elements",
    "  scan, s    List the shortcodes found in documents as JSON",
    "  help       Print this message",
    "",
    "Options:",
    "      --color <COLOR>    auto, always or never [default: auto]",
    "  -C, --config <PATH>    Config file, searched upward from here [default: fa.toml]",
    "  -v, --verbose          Enable verbose output",
    "  -h, --help             Print help",
    "  -V, --version          Print version",
    "",
    "Options of render and scan:",
    "  -o, --output <PATH>    Write files into a directory, or the report to a file",
    "      --prefix <PREFIX>  Class prefix for generated classes",
    "      --class <CLASS>    Extra classes, separated by commas",
    "  -f, --format <FORMAT>  html or markdown",
    "  -p, --pretty           Pretty-print JSON output (scan only)",
    ""]

/-- The message for a command line that is not run because of a mistake. -/
def Stop.message : Stop → String
  | .noCommand => "no command is given"
  | .unknownCommand => "the command is unknown"
  | .unknownOption => "an option is unknown"
  | .wrongValue => "a value is missing or wrong"
  | .repeatedOption => "an option is given more than once"
  | .needlessValue => "an option that takes no value has one"
  | _ => ""

/-- What the program gives back to its caller. -/
structure Result where
  /-- The exit code. -/
  exitCode : Nat
  /-- The standard output. -/
  output : String
  /-- The error output. -/
  errorOutput : String
  /-- The files. -/
  files : FileSystem

/-- Runs the program with the words of its command line. -/
def execute (words : List String) (sources : Sources) (schedule : Schedule) : Result :=
  match readArguments words with
  | .ok arguments =>
    let outcome := run arguments sources schedule
    ⟨outcome.exitCode, outcome.output, outcome.errorOutput arguments.verbose, outcome.files⟩
  | .error .help => ⟨0, helpText, "", sources.files⟩
  | .error .version => ⟨0, versionText, "", sources.files⟩
  | .error .noArguments => ⟨Stop.noArguments.exitCode, "", helpText, sources.files⟩
  | .error stop => ⟨stop.exitCode, "", "error: " ++ stop.message ++ "\n", sources.files⟩

end IconMarkup.CommandLine
