import IconMarkup.Text.Ansi

/-!
# Diagnostics of settings

What is wrong with a setting: the dotted path of the field, a message and sometimes a hint. A list
of diagnostics is shown under one heading, with their number at the end if there are several.
-/

namespace IconMarkup.Config

open IconMarkup.Text

/-- One fault of the settings. -/
structure Diagnostic where
  /-- The dotted path of the field. -/
  field : String
  /-- What is wrong. -/
  message : String
  /-- How to mend it. -/
  hint : Option String := none
  deriving DecidableEq, Repr

namespace Diagnostic

/-- The diagnostic as it is shown to the user. -/
def display (diagnostic : Diagnostic) : String :=
  let head := Ansi.dim "[" ++ Ansi.cyan diagnostic.field ++ Ansi.dim "]" ++ "\n" ++
    Ansi.red "→" ++ " " ++ diagnostic.message
  match diagnostic.hint with
  | some hint => head ++ "\n  " ++ Ansi.yellow "hint:" ++ " " ++ hint
  | none => head

/-- The path of the field as it is shown to the user. -/
def displayField (diagnostic : Diagnostic) : String :=
  Ansi.brightBlue ("`" ++ diagnostic.field ++ "`")

/-- A list of diagnostics as it is shown to the user. -/
def displayAll (diagnostics : List Diagnostic) : String :=
  let head := Ansi.bold (Ansi.red "config validation failed:") ++ "\n\n"
  let body := String.intercalate "\n\n" (diagnostics.map display)
  let total :=
    if 1 < diagnostics.length then
      "\n\n" ++ Ansi.dim "found" ++ " " ++
        Ansi.bold (Ansi.red (toString diagnostics.length)) ++ " " ++ Ansi.dim "errors"
    else ""
  head ++ body ++ total

end Diagnostic

end IconMarkup.Config
