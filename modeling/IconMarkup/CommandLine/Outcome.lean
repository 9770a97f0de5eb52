import IconMarkup.CommandLine.Notice
import IconMarkup.Config.Location
import IconMarkup.Input.Input
import IconMarkup.Text.Counted

/-!
# Outcomes

What a run leaves behind: the standard output, the notices, the files, and perhaps a failure, which
is shown after all notices and makes the exit code one.
-/

namespace IconMarkup.CommandLine

open IconMarkup.Files

/-- Why a run failed. -/
inductive Failure where
  /-- There are no usable settings. -/
  | settings (cause : Config.Failure)
  /-- The paths are no inputs. -/
  | inputs (cause : InputError)
  /-- The output directory cannot be made. -/
  | outputDirectory (path : Path) (fault : Fault)
  /-- The output file cannot be made. -/
  | outputFile (path : Path) (fault : Fault)
  /-- Some inputs were not rendered. -/
  | unrendered (count : Nat)
  /-- Some inputs were not scanned. -/
  | unscanned (count : Nat)
  deriving DecidableEq, Repr

namespace Failure

/-- The message for the user. -/
def message : Failure → String
  | settings cause => cause.message
  | inputs cause => cause.message
  | outputDirectory path _ => "failed to create output directory " ++ path.toString
  | outputFile path _ => "failed to create " ++ path.toString
  | unrendered count => "failed to render " ++ Text.counted count "input"
  | unscanned count => "failed to scan " ++ Text.counted count "input"

/-- The fault of the file system behind a failure. -/
def fault? : Failure → Option Fault
  | settings (.unreadable _ fault) => some fault
  | outputDirectory _ fault => some fault
  | outputFile _ fault => some fault
  | _ => none

/-- The lines that show a failure. -/
def display (failure : Failure) : String :=
  let cause := match failure.fault? with
    | some fault => "\nCaused by:\n    " ++ fault.message ++ "\n"
    | none => ""
  "Error: " ++ failure.message ++ "\n" ++ cause

end Failure

/-- What a run leaves behind. -/
structure Outcome where
  /-- The standard output. -/
  output : String := ""
  /-- The notices, in order. -/
  notices : List Notice := []
  /-- Why it failed. -/
  failure : Option Failure := none
  /-- The files. -/
  files : FileSystem

namespace Outcome

/-- The exit code. -/
def exitCode (outcome : Outcome) : Nat :=
  if outcome.failure.isNone then 0 else 1

/-- The error output. -/
def errorOutput (outcome : Outcome) (verbose : Bool) : String :=
  String.join ((outcome.notices.filter (Notice.isShown verbose)).map Notice.display) ++
    (outcome.failure.map Failure.display).getD ""

/-- The outcome with further notices before the others. -/
def after (outcome : Outcome) (notices : List Notice) : Outcome :=
  { outcome with notices := notices ++ outcome.notices }

end Outcome

/-- The failure of some inputs out of many, if there are any. -/
def failureOf (failure : Nat → Failure) (count : Nat) : Option Failure :=
  if count = 0 then none else some (failure count)

end IconMarkup.CommandLine
