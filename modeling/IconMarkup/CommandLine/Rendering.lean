import IconMarkup.CommandLine.Arguments
import IconMarkup.CommandLine.Outcome
import IconMarkup.Pipeline
import IconMarkup.Text.Bytes

/-!
# Rendering inputs

The inputs are rendered to the standard output, in their order, or each one to a file below the
output directory. An input that fails does not keep the others from being rendered. The work on the
inputs for a directory goes on side by side: it has steps, and a schedule tells which input takes
the next one. An input is never written over by its own output.
-/

namespace IconMarkup.CommandLine

open IconMarkup.Config IconMarkup.Files

/-- A rendered input. -/
structure Rendered where
  /-- The markup. -/
  html : String
  /-- How many texts had shortcodes. -/
  replaced : Nat
  /-- The length of the remaining text in bytes. -/
  textBytes : Nat
  /-- The format that it was read from. -/
  format : DocumentFormat
  deriving DecidableEq, Repr

/-- Renders an input. -/
def renderInput (sources : Sources) (settings : Settings) (forced : Option DocumentFormat)
    (input : Input) : Except Input.ReadError Rendered := do
  let text ← input.read sources
  let format := input.format forced
  let document := format.read settings.render.markdown text
  let (document, replaced) := document.withIcons settings
  return ⟨document.render, replaced, Text.byteLength document.textContent.toList, format⟩

/-- The details about a rendered input. -/
def Rendered.notices (rendered : Rendered) : List Notice :=
  let replaced : List Notice :=
    if rendered.replaced = 0 then []
    else [.detail .render ("rewrote " ++ toString rendered.replaced ++ " text node(s)")]
  replaced ++
    [.detail .render (toString rendered.textBytes ++ " text bytes after transform")]

/-- The message about an input that failed. -/
def failedNotice (input : Input) (message : String) : Notice :=
  .log .error (input.display ++ ": " ++ message)

/-! ### To the standard output -/

/-- Markup that ends in a line end. -/
def withLineEnd (html : String) : String :=
  if html.endsWith "\n" then html else html ++ "\n"

/-- Renders inputs to the standard output. -/
def renderToOutput (sources : Sources) (settings : Settings) (forced : Option DocumentFormat)
    (inputs : List Input) : Outcome :=
  let results := inputs.map fun input => (input, renderInput sources settings forced input)
  let rendered := results.filterMap fun (_, result) => result.toOption
  let errors := results.filterMap fun (input, result) =>
    match result with
    | .ok _ => none
    | .error error => some (failedNotice input error.message)
  { output := String.join (rendered.map fun rendered => withLineEnd rendered.html)
    notices := rendered.flatMap Rendered.notices ++ errors
    failure := failureOf .unrendered errors.length
    files := sources.files }

/-! ### To a directory -/

/-- Why an input was not written. -/
inductive WriteError where
  /-- It cannot be read. -/
  | unreadable (error : Input.ReadError)
  /-- Its output is the input itself. -/
  | overwrites (path : Path)
  /-- The directory of its output cannot be made. -/
  | noDirectory (fault : Fault)
  /-- Its output cannot be written. -/
  | unwritable (target : Path) (fault : Fault)
  deriving DecidableEq, Repr

/-- The message for the user. -/
def WriteError.message : WriteError → String
  | unreadable error => error.message
  | overwrites path => "refusing to overwrite the input file " ++ path.toString
  | noDirectory fault => fault.message
  | unwritable target fault => "failed to write " ++ target.toString ++ ": " ++ fault.message

/-- The path of an input over which its own output would be written. -/
def overwritten? (files : FileSystem) (target : Path) (input : Input) : Option Path :=
  match input with
  | .stdin => none
  | .file path _ => if files.sameFile path target then some path else none

/-- Where the markup of an input is written. -/
def targetOf (directory : Path) (input : Input) : Path :=
  directory.join input.outputName

/-- What rendering an input to a file has come to. -/
structure Written where
  /-- The markup, if the input could be read. -/
  rendered : Option Rendered
  /-- Why it was not written. -/
  error : Option WriteError
  deriving DecidableEq, Repr

/-- How far the work on an input has come. -/
inductive Stage where
  /-- Nothing has been done. -/
  | waiting
  /-- The input has been read and rendered. -/
  | rendered (result : Rendered)
  /-- The target has been found not to be the input itself. -/
  | compared (result : Rendered)
  /-- The directory of the target is there. -/
  | placed (result : Rendered)
  /-- The work is over. -/
  | finished (written : Written)
  deriving DecidableEq, Repr

/-- How many steps the work on an input takes. -/
def Stage.steps : Nat := 4

/-- One step of the work on an input. -/
def Stage.next (settings : Settings) (forced : Option DocumentFormat) (directory : Path)
    (sources : Sources) (input : Input) : Stage → FileSystem × Stage
  | .waiting =>
    match renderInput sources settings forced input with
    | .error error => (sources.files, .finished ⟨none, some (.unreadable error)⟩)
    | .ok result => (sources.files, .rendered result)
  | .rendered result =>
    match overwritten? sources.files (targetOf directory input) input with
    | some path => (sources.files, .finished ⟨some result, some (.overwrites path)⟩)
    | none => (sources.files, .compared result)
  | .compared result =>
    match sources.files.makeDirectories ((targetOf directory input).parent?.getD .empty) with
    | (files, some fault) => (files, .finished ⟨some result, some (.noDirectory fault)⟩)
    | (files, none) => (files, .placed result)
  | .placed result =>
    match sources.files.writeFile (targetOf directory input) result.html.toUTF8 with
    | .error fault =>
      (sources.files, .finished ⟨some result, some (.unwritable (targetOf directory input) fault)⟩)
    | .ok files => (files, .finished ⟨some result, none⟩)
  | .finished written => (sources.files, .finished written)

/-- The details that are told when a stage is reached. -/
def Stage.notices : Stage → List Notice
  | .rendered result => result.notices
  | _ => []

/-- The format that is counted when the work goes from one stage to the next: that of an input whose
output has been written. -/
def Stage.counted (next : Stage) : Stage → List DocumentFormat
  | .placed result =>
    match next with
    | .finished ⟨_, none⟩ => [result.format]
    | _ => []
  | _ => []

/-- What the work on an input has come to, once it is over. -/
def Stage.written? : Stage → Option Written
  | .finished written => some written
  | _ => none

/-- The work on one input. -/
structure Task where
  /-- The input. -/
  input : Input
  /-- How far the work has come. -/
  stage : Stage
  deriving DecidableEq, Repr

/-- The work on all inputs. -/
structure Work where
  /-- What the inputs are read from, with all that has been written so far. -/
  sources : Sources
  /-- The work on each input, in the order of the inputs. -/
  tasks : List Task
  /-- The details told so far. -/
  notices : List Notice
  /-- The formats whose counters have been asked to go up, in order. -/
  counted : List DocumentFormat

namespace Work

/-- The work before its first step. -/
def start (sources : Sources) (inputs : List Input) : Work :=
  { sources, tasks := inputs.map fun input => ⟨input, .waiting⟩, notices := [], counted := [] }

/-- Takes one step in the work on the input at a position. -/
def advance (settings : Settings) (forced : Option DocumentFormat) (directory : Path) (work : Work)
    (position : Nat) : Work :=
  match work.tasks[position]? with
  | none => work
  | some task =>
    let (files, stage) := task.stage.next settings forced directory work.sources task.input
    { sources := { work.sources with files }
      tasks := work.tasks.set position { task with stage }
      notices := work.notices ++ stage.notices
      counted := work.counted ++ stage.counted task.stage }

/-- Takes steps in the work on the inputs at the positions, one after the other. -/
def run (settings : Settings) (forced : Option DocumentFormat) (directory : Path) (work : Work)
    (positions : List Nat) : Work :=
  positions.foldl (advance settings forced directory) work

/-- What the work on each input has come to. -/
def results (work : Work) : List (Input × Written) :=
  work.tasks.filterMap fun task => task.stage.written?.map (task.input, ·)

end Work

/-- The order in which steps are taken in the work on a number of inputs, as their positions. Work
that is not over after these steps is brought to its end in the order of the inputs. -/
abbrev Schedule := Nat → List Nat

/-- One input after the other. -/
def Schedule.inOrder : Schedule := fun _ => []

/-- All steps that are taken. -/
def Schedule.positions (schedule : Schedule) (count : Nat) : List Nat :=
  schedule count ++ (List.range count).flatMap fun position => List.replicate Stage.steps position

/-- The counters of the formats before any input is done. -/
def progressBefore (forced : Option DocumentFormat) (inputs : List Input) : List Progress :=
  let pages := inputs.countP fun input => input.format forced = .html
  Progress.counters [(.html, pages), (.markdown, inputs.length - pages)]

/-- The counters after work in which formats have been counted. -/
def progressAfter (forced : Option DocumentFormat) (inputs : List Input)
    (counted : List DocumentFormat) : List Progress :=
  counted.foldl (fun counters format => Progress.increment format.name counters)
    (progressBefore forced inputs)

/-- Renders inputs to files below a directory. -/
def renderToDirectory (sources : Sources) (settings : Settings) (forced : Option DocumentFormat)
    (schedule : Schedule) (directory : Path) (inputs : List Input) : Outcome :=
  match sources.files.makeDirectories directory with
  | (files, some fault) => { failure := some (.outputDirectory directory fault), files }
  | (files, none) =>
    let work := (Work.start { sources with files } inputs).run settings forced directory
      (schedule.positions inputs.length)
    let errors := work.results.filterMap fun (input, written) =>
      written.error.map fun error => failedNotice input error.message
    let count := inputs.length - errors.length
    { notices := work.notices ++ [.progress (progressAfter forced inputs work.counted)] ++ errors ++
        [.log .render ("wrote " ++ Text.counted count "file" ++ " to " ++ directory.toString)]
      failure := failureOf .unrendered errors.length
      files := work.sources.files }

/-- Renders what the arguments name. -/
def runRender (arguments : RenderArguments) (settings : Settings) (sources : Sources)
    (schedule : Schedule) : Outcome :=
  match collectInputs sources.files arguments.format arguments.paths with
  | .error error => { failure := some (.inputs error), files := sources.files }
  | .ok inputs =>
    let outcome := match arguments.output with
      | some directory =>
        renderToDirectory sources settings arguments.format schedule directory inputs
      | none => renderToOutput sources settings arguments.format inputs
    outcome.after [.detail .render ("rendering " ++ Text.counted inputs.length "input")]

end IconMarkup.CommandLine
