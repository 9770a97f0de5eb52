import IconMarkup.Files.FileSystem
import IconMarkup.Input.DocumentFormat

/-!
# Inputs

Where documents come from: the standard input, or a file that was named itself or was found below a
named directory. An input decides the format of its document and the name of its output.
-/

namespace IconMarkup

open IconMarkup.Files

/-- Where a document comes from. -/
inductive Input where
  /-- The standard input. -/
  | stdin
  /-- A file; `root` is the directory below which it was found. -/
  | file (path : Path) (root : Option Path)
  deriving DecidableEq, Repr

/-- What inputs are read from. -/
structure Sources where
  /-- The files. -/
  files : FileSystem
  /-- The bytes of the standard input. -/
  stdin : ByteArray

namespace Input

/-- The name of an input as it is shown to the user. -/
def display : Input → String
  | stdin => "<stdin>"
  | file path _ => path.toString

/-- The format of an input: the one that is asked for, or else what the file name tells, or else
HTML. -/
def format (input : Input) (forced : Option DocumentFormat) : DocumentFormat :=
  match forced, input with
  | some format, _ => format
  | none, stdin => .html
  | none, file path _ => (DocumentFormat.ofPath? path).getD .html

/-- The path of the output below an output directory. Files found below a directory keep their path
from there. -/
def outputName : Input → Path
  | stdin => ⟨["stdin.html"]⟩
  | file path root =>
    let relative := (root.bind path.stripPrefix?).or (path.fileName?.map fun name => ⟨[name]⟩)
    (relative.getD path).withExtension "html"

/-- Why an input cannot be read. -/
structure ReadError where
  /-- The input. -/
  input : Input
  /-- What went wrong. -/
  fault : Fault
  deriving DecidableEq, Repr

/-- What could not be done, for the user. -/
def ReadError.summary (error : ReadError) : String :=
  match error.input with
  | stdin => "failed to read stdin"
  | file path _ => "failed to read " ++ path.toString

/-- The message for the user. -/
def ReadError.message (error : ReadError) : String :=
  error.summary ++ ": " ++ error.fault.message

/-- Reads the text of an input. -/
def read (input : Input) (sources : Sources) : Except ReadError String :=
  let content := match input with
    | stdin => decodeText sources.stdin
    | file path _ => sources.files.readText path
  content.mapError (⟨input, ·⟩)

end Input

/-- Why no inputs can be made of the paths on the command line. -/
inductive InputError where
  /-- The standard input is named twice. -/
  | repeatedStdin
  /-- The format of a file is unknown. -/
  | unsupported (path : Path)
  /-- A path leads nowhere. -/
  | notFound (path : Path)
  deriving DecidableEq, Repr

/-- The message for the user. -/
def InputError.message : InputError → String
  | repeatedStdin => "`-` (stdin) can only be given once"
  | unsupported path =>
    "Not a supported input file: " ++ path.toString ++ " (use --format to force one)"
  | notFound path => "Path not found: " ++ path.toString

/-- The files with a known format that a path leads to. -/
def documentsBelow (files : FileSystem) (path : Path) : List Path :=
  (files.walk path).filter fun path => (DocumentFormat.ofPath? path).isSome

/-- The path that stands for the standard input. -/
def stdinPath : Path := ⟨["-"]⟩

/-- The inputs that paths stand for, in order; `stdinSeen` tells whether the standard input is one
of the inputs before them. -/
def inputsFrom (files : FileSystem) (forced : Option DocumentFormat) :
    (stdinSeen : Bool) → List Path → Except InputError (List Input)
  | _, [] => .ok []
  | stdinSeen, path :: rest => do
    if path = stdinPath then
      if stdinSeen then .error .repeatedStdin
      else return .stdin :: (← inputsFrom files forced true rest)
    else if files.isFile path then
      if forced.isNone && (DocumentFormat.ofPath? path).isNone then .error (.unsupported path)
      else return .file path none :: (← inputsFrom files forced stdinSeen rest)
    else if files.isDirectory path then
      let found := (documentsBelow files path).map fun file => Input.file file (some path)
      return found ++ (← inputsFrom files forced stdinSeen rest)
    else .error (.notFound path)

/-- The inputs that the paths on the command line stand for; without paths, the standard input. -/
def collectInputs (files : FileSystem) (forced : Option DocumentFormat) (paths : List Path) :
    Except InputError (List Input) :=
  if paths.isEmpty then .ok [.stdin] else inputsFrom files forced false paths

end IconMarkup
