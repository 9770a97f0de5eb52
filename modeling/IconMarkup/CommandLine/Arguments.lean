import IconMarkup.Config.Location
import IconMarkup.Input.Input

/-!
# Arguments

What a command line asks for: a command with its paths and options, and the options that every
command has. A command line that asks for nothing that can be run is stopped with a reason, which
also decides the exit code.
-/

namespace IconMarkup.CommandLine

open IconMarkup.Files

/-- When output is coloured. -/
inductive Color where
  /-- On terminals. -/
  | auto
  /-- In any case. -/
  | always
  /-- In no case. -/
  | never
  deriving DecidableEq, Repr

/-- The name of a choice. -/
def Color.name : Color → String
  | auto => "auto"
  | always => "always"
  | never => "never"

/-- The choice with a name. -/
def Color.ofName? (name : String) : Option Color :=
  [auto, always, never].find? (·.name == name)

/-- Settings for icons that replace those of the settings file. -/
structure Overrides where
  /-- The first part of class names. -/
  classPrefix : Option String := none
  /-- The further classes. -/
  classes : Option (List String) := none
  deriving DecidableEq, Repr

/-- What is to be rendered, and where to. -/
structure RenderArguments where
  /-- The paths of the inputs. -/
  paths : List Path
  /-- The output directory. -/
  output : Option Path
  /-- The settings for icons. -/
  icons : Overrides
  /-- The format of all inputs. -/
  format : Option DocumentFormat
  deriving DecidableEq, Repr

/-- What is to be scanned, and where to. -/
structure ScanArguments where
  /-- The paths of the inputs. -/
  paths : List Path
  /-- The settings for icons. -/
  icons : Overrides
  /-- The format of all inputs. -/
  format : Option DocumentFormat
  /-- Whether the report is written with one element per line. -/
  pretty : Bool
  /-- The output file. -/
  output : Option Path
  deriving DecidableEq, Repr

/-- A command. -/
inductive Command where
  /-- Replaces shortcodes and writes HTML. -/
  | render (arguments : RenderArguments)
  /-- Lists shortcodes. -/
  | scan (arguments : ScanArguments)
  deriving DecidableEq, Repr

/-- What a command line asks for. -/
structure Arguments where
  /-- When output is coloured. -/
  color : Color
  /-- The path of the settings file. -/
  config : Path
  /-- Whether details are logged. -/
  verbose : Bool
  /-- The command. -/
  command : Command
  deriving DecidableEq, Repr

/-- The settings for icons on the command line. -/
def Arguments.icons (arguments : Arguments) : Overrides :=
  match arguments.command with
  | .render arguments => arguments.icons
  | .scan arguments => arguments.icons

/-- Whether the settings file is the default one, which need not be there. -/
def Arguments.usesDefaultConfig (arguments : Arguments) : Bool :=
  arguments.config = Config.defaultPath

/-- Why a command line is not run. -/
inductive Stop where
  /-- It asks for help. -/
  | help
  /-- It asks for the version. -/
  | version
  /-- It is empty. -/
  | noArguments
  /-- It has no command. -/
  | noCommand
  /-- It has an unknown command. -/
  | unknownCommand
  /-- It has an unknown option. -/
  | unknownOption
  /-- The value of an option or a path is missing or wrong. -/
  | wrongValue
  /-- An option is repeated. -/
  | repeatedOption
  /-- An option without value has one. -/
  | needlessValue
  deriving DecidableEq, Repr

/-- The exit code. -/
def Stop.exitCode : Stop → Nat
  | help => 0
  | version => 0
  | _ => 2

end IconMarkup.CommandLine
