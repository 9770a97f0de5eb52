import IconMarkup.CommandLine.Rendering
import IconMarkup.Text.Json

/-!
# Scanning inputs

The shortcodes that rendering would replace, input by input, as JSON on the standard output or in a
file. An input that fails is left out.
-/

namespace IconMarkup.CommandLine

open IconMarkup.Config IconMarkup.Files IconMarkup.Text

/-- The shortcodes of one input. -/
structure Scanned where
  /-- The input. -/
  input : Input
  /-- Its format. -/
  format : DocumentFormat
  /-- Its shortcodes, in order. -/
  icons : List FoundIcon
  deriving DecidableEq, Repr

/-- Scans an input. -/
def scanInput (sources : Sources) (settings : Settings) (forced : Option DocumentFormat)
    (input : Input) : Except Input.ReadError Scanned := do
  let text ← input.read sources
  let format := input.format forced
  let document := format.read settings.render.markdown text
  return ⟨input, format, collect document settings⟩

/-- A found icon as JSON. -/
def iconJson (found : FoundIcon) : Json :=
  .object [("shortcode", .string found.shortcode), ("style", .string found.style.keyword),
    ("icon", .string found.icon), ("classes", .array (found.classes.map .string))]

/-- The shortcodes of one input as JSON. -/
def Scanned.toJson (scanned : Scanned) : Json :=
  .object [("path", .string scanned.input.display), ("format", .string scanned.format.name),
    ("icons", .array (scanned.icons.map iconJson))]

/-- The report on scanned inputs. -/
def report (pretty : Bool) (scanned : List Scanned) : String :=
  let json : Json := .array (scanned.map Scanned.toJson)
  (if pretty then json.pretty else json.compact) ++ "\n"

/-- The number of shortcodes, as it is shown to the user. -/
def countedShortcodes (count : Nat) : String :=
  Text.counted count "shortcode"

/-- Scans inputs, and writes the report to the standard output or to a file. -/
def scanInputs (sources : Sources) (settings : Settings) (arguments : ScanArguments)
    (inputs : List Input) : Outcome :=
  let results := inputs.map fun input =>
    (input, scanInput sources settings arguments.format input)
  let scanned := results.filterMap fun (_, result) => result.toOption
  let errors := results.filterMap fun (input, result) =>
    match result with
    | .ok _ => none
    | .error error => some (failedNotice input error.message)
  let details := scanned.map fun scanned =>
    Notice.detail .scan (scanned.input.display ++ ": " ++ countedShortcodes scanned.icons.length)
  let total := (scanned.flatMap (·.icons)).length
  let notices := .log .scan ("scanning " ++ Text.counted inputs.length "file") ::
    errors ++ details ++ [.log .scan ("found " ++ countedShortcodes total)]
  let failure := failureOf .unscanned errors.length
  let text := report arguments.pretty scanned
  match arguments.output with
  | none => { output := text, notices, failure, files := sources.files }
  | some path =>
    match sources.files.writeFile path text.toUTF8 with
    | .error fault =>
      { notices, failure := some (.outputFile path fault), files := sources.files }
    | .ok files =>
      let done := Notice.log .scan ("wrote output to " ++ path.toString)
      { notices := notices ++ [done], failure, files }

/-- Scans what the arguments name. -/
def runScan (arguments : ScanArguments) (settings : Settings) (sources : Sources) : Outcome :=
  match collectInputs sources.files arguments.format arguments.paths with
  | .error error => { failure := some (.inputs error), files := sources.files }
  | .ok inputs => scanInputs sources settings arguments inputs

end IconMarkup.CommandLine
