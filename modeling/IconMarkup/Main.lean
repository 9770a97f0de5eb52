import IconMarkup.CommandLine.Program

/-!
# The executable

The outer layer: it looks at the files that a command line names, runs the program on them, and
carries out what the run changed.
-/

namespace IconMarkup.Executable

open IconMarkup.CommandLine IconMarkup.Files

/-- Adds what stands on the disk at a place and below it. Below it, names that begin with a dot are
left out. -/
partial def observeBelow (files : FileSystem) (location : Location) : IO FileSystem := do
  let path := (← IO.currentDir) / (Config.absolutePath location).toString
  if ← path.isDir then
    let mut files := if location.isEmpty then files else files.put location .directory
    for entry in ← path.readDir do
      unless entry.fileName.startsWith "." do
        files ← observeBelow files (location ++ [entry.fileName])
    return files
  else if ← path.pathExists then
    return files.put location (.file (← IO.FS.readBinFile path))
  else return files

/-- Adds what stands on the disk at a place; a directory is added without its content. -/
def observe (files : FileSystem) (location : Location) : IO FileSystem := do
  let path := (← IO.currentDir) / (Config.absolutePath location).toString
  if location.isEmpty then return files
  else if ← path.isDir then return files.put location .directory
  else if ← path.pathExists then
    return files.put location (.file (← IO.FS.readBinFile path))
  else return files

/-- Adds what a path leads through, and what stands below its end if that is asked for. -/
def observePath (files : FileSystem) (path : Path) (below : Bool) : IO FileSystem := do
  let mut files := files
  let mut location := files.origin path
  for piece in path.pieces do
    unless isFiller piece do
      location := if piece = ".." then location.dropLast else location ++ [piece]
      files ← observe files location
  if below then observeBelow files location else return files

/-- The paths of the inputs and of the output that arguments name. -/
def namedPaths (arguments : Arguments) : List Path :=
  match arguments.command with
  | .render arguments => arguments.paths ++ arguments.output.toList
  | .scan arguments => arguments.paths ++ arguments.output.toList

/-- Whether arguments ask for the standard input. -/
def readsStdin (arguments : Arguments) : Bool :=
  match arguments.command with
  | .render arguments => arguments.paths.isEmpty || arguments.paths.contains stdinPath
  | .scan arguments => arguments.paths.isEmpty || arguments.paths.contains stdinPath

/-- Looks at everything that a run with these arguments can look at. -/
def sourcesFor (arguments : Arguments) : IO Sources := do
  let here := Path.ofString (← IO.currentDir).toString
  let names := here.components.filterMap fun
    | .name name => some name
    | _ => none
  let mut files : FileSystem := { workingDirectory := names }
  for location in (Config.ancestors names).reverse do
    files ← observe files location
    files ← observePath files ((Config.absolutePath location).join arguments.config) false
  for path in namedPaths arguments do
    files ← observePath files path true
  let stdin ← if readsStdin arguments then (← IO.getStdin).readBinToEnd else pure .empty
  return ⟨files, stdin⟩

/-- Carries out on the disk what a run changed. -/
def carryOut (before after : FileSystem) : IO Unit := do
  for (location, entry) in after.entries do
    let path := (Config.absolutePath location).toString
    match before.get? location, entry with
    | some (.file old), .file new => if old != new then IO.FS.writeBinFile path new
    | _, .file new => IO.FS.writeBinFile path new
    | none, .directory => IO.FS.createDirAll path
    | some _, .directory => pure ()

end IconMarkup.Executable

open IconMarkup IconMarkup.CommandLine IconMarkup.Executable in
/-- Runs the program. -/
def main (words : List String) : IO UInt32 := do
  let sources ← match readArguments words with
    | .ok arguments => sourcesFor arguments
    | .error _ => pure ⟨{}, .empty⟩
  let result := execute words sources Schedule.inOrder
  carryOut sources.files result.files
  (← IO.getStdout).putStr result.output
  (← IO.getStderr).putStr result.errorOutput
  return UInt32.ofNat result.exitCode
