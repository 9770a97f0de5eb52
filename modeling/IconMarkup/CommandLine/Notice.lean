import IconMarkup.Config.Record
import IconMarkup.Input.DocumentFormat
import IconMarkup.Text.Ansi

/-!
# Notices

What the program tells the user on the error output while it runs, one line each: log messages with
the part of the program that they come from, unknown fields of the settings, and the progress of
writing files. Details are shown on demand only.
-/

namespace IconMarkup.CommandLine

open IconMarkup.Text

/-- Where a log message comes from. -/
inductive Channel where
  /-- Rendering. -/
  | render
  /-- Scanning. -/
  | scan
  /-- An input that failed. -/
  | error
  /-- The settings. -/
  | config
  /-- Something odd in the settings. -/
  | warning
  deriving DecidableEq, Repr

/-- The mark at the beginning of a log message. -/
def Channel.mark : Channel → String
  | render => Ansi.bold (Ansi.brightBlue "[render]")
  | scan => Ansi.bold (Ansi.brightGreen "[scan]")
  | error => Ansi.bold (Ansi.brightRed "[error]")
  | config => Ansi.bold (Ansi.brightYellow "[config]")
  | warning => Ansi.bold (Ansi.brightYellow "[warning]")

/-- How many of the inputs of a format are done. -/
structure Progress where
  /-- The format. -/
  format : DocumentFormat
  /-- How many inputs are done. -/
  done : Nat
  /-- How many inputs there are. -/
  total : Nat
  deriving DecidableEq, Repr

/-- The counters of formats with the numbers of their inputs, with nothing done. A format without
inputs has no counter. -/
def Progress.counters (totals : List (DocumentFormat × Nat)) : List Progress :=
  (totals.filter fun (_, total) => 0 < total).map fun (format, total) => ⟨format, 0, total⟩

/-- Counts one more input in the counter with a name, if there is one. -/
def Progress.increment (name : String) : List Progress → List Progress
  | [] => []
  | counter :: rest =>
    if counter.format.name = name then { counter with done := counter.done + 1 } :: rest
    else counter :: increment name rest

/-- The progress as it is shown to the user. -/
def Progress.display (progress : Progress) : String :=
  progress.format.name ++ "(" ++ toString progress.done ++ "/" ++ toString progress.total ++ ")"

/-- A line on the error output. -/
inductive Notice where
  /-- A log message. -/
  | log (channel : Channel) (message : String)
  /-- A log message that is shown on demand only. -/
  | detail (channel : Channel) (message : String)
  /-- An unknown field of the settings. -/
  | field (path : Config.FieldPath)
  /-- How far writing files has come. -/
  | progress (counters : List Progress)
  deriving DecidableEq, Repr

namespace Notice

/-- Whether a notice is shown. -/
def isShown (verbose : Bool) : Notice → Bool
  | detail _ _ => verbose
  | _ => true

/-- The line of a notice. -/
def display : Notice → String
  | log channel message => channel.mark ++ " " ++ message ++ "\n"
  | detail channel message => channel.mark ++ " " ++ message ++ "\n"
  | field path => "- " ++ Config.FieldPath.display path ++ "\n"
  | progress counters =>
    Channel.render.mark ++ " " ++ String.intercalate " " (counters.map Progress.display) ++ "\n"

end Notice

end IconMarkup.CommandLine
