import IconMarkup.Config.SettingsText
import IconMarkup.Files.FileSystem

/-!
# Finding and loading settings

A relative path to the settings is tried from the working directory upward, and the first regular
file wins; an absolute path is taken as it is. Settings that are not found are an error only if they
were asked for.
-/

namespace IconMarkup.Config

open IconMarkup.Files

/-- Why there are no usable settings. -/
inductive Failure where
  /-- The file cannot be read. -/
  | unreadable (path : Path) (fault : Fault)
  /-- The text is not TOML or has values of a wrong kind. -/
  | malformed
  /-- The file was asked for and not found. -/
  | notFound (path : Path)
  /-- Some settings have faults. -/
  | invalid (diagnostics : List Diagnostic)
  deriving DecidableEq, Repr

/-- The message for the user. -/
def Failure.message : Failure → String
  | .unreadable path _ => "IO error when reading `" ++ path.toString ++ "`"
  | .malformed => "Config file parsing error"
  | .notFound path => "config file `" ++ path.toString ++ "` not found"
  | .invalid diagnostics => Diagnostic.displayAll diagnostics

/-- The name of the file that is read unless another one is asked for. -/
def defaultPath : Path := ⟨["fa.toml"]⟩

/-- The absolute path of a place. -/
def absolutePath (location : Location) : Path :=
  ⟨"" :: (if location.isEmpty then [""] else location)⟩

/-- A directory and the directories above it, from the inside out. -/
def ancestors (location : Location) : List Location :=
  (List.range (location.length + 1)).reverse.map location.take

/-- The file that a path to settings leads to from a directory. -/
def findAbove (files : FileSystem) (start path : Path) : Option Path :=
  if path.isAbsolute then if files.has path then some path else none
  else (start.ancestors.map fun directory => directory.join path).find? files.isFile

/-- The file that a path to settings leads to from a place. -/
def findFrom (files : FileSystem) (start : Location) (path : Path) : Option Path :=
  findAbove files (absolutePath start) path

/-- Settings that were read from a file. -/
structure Loaded where
  /-- The settings. -/
  settings : Settings
  /-- The file, if there is one. -/
  path : Option Path := none
  /-- The unknown fields in the file. -/
  unknown : List FieldPath := []
  deriving DecidableEq, Repr

/-- Reads settings from a file. -/
def loadFile (files : FileSystem) (path : Path) : Except Failure Loaded :=
  match files.readText path with
  | .error fault => .error (.unreadable path fault)
  | .ok text =>
    match Settings.ofText? text with
    | none => .error .malformed
    | some (settings, unknown) => .ok { settings, path := some path, unknown }

/-- Finds and reads the settings at a path; without a file, the settings are the default ones unless
the file is required. -/
def load (files : FileSystem) (path : Path) (required : Bool) : Except Failure Loaded :=
  match findFrom files files.workingDirectory path with
  | some found => loadFile files found
  | none => if required then .error (.notFound path) else .ok { settings := {} }

/-- Settings without faults. -/
def Settings.validate (settings : Settings) : Except Failure Unit :=
  match settings.diagnose with
  | [] => .ok ()
  | diagnostics => .error (.invalid diagnostics)

end IconMarkup.Config
