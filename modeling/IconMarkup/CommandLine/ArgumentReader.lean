import IconMarkup.CommandLine.Arguments

/-!
# Reading arguments

Words of a command line are options with one or two hyphens, values of the option before them, the
name of a command, or paths. An option waits for its value until the next word, and its value is
looked at when the word after that begins something new; so of two mistakes the first one counts,
unless the second one is an unknown word. After `--` there are only paths.
-/

namespace IconMarkup.CommandLine

open IconMarkup.Files

/-! ### Options and commands -/

/-- An option. -/
inductive OptionName where
  /-- When output is coloured. -/
  | color
  /-- The settings file. -/
  | config
  /-- Whether details are logged. -/
  | verbose
  /-- Asks for help. -/
  | help
  /-- Asks for the version. -/
  | version
  /-- The output file or directory. -/
  | output
  /-- The first part of class names. -/
  | classPrefix
  /-- The further classes. -/
  | classes
  /-- The format of all inputs. -/
  | format
  /-- Whether the report is written with one element per line. -/
  | pretty
  deriving DecidableEq, Repr

/-- Whether an option takes a value. -/
def OptionName.takesValue : OptionName → Bool
  | verbose => false
  | help => false
  | version => false
  | pretty => false
  | _ => true

/-- The name of a command. -/
inductive CommandName where
  /-- Replaces shortcodes and writes HTML. -/
  | render
  /-- Lists shortcodes. -/
  | scan
  /-- Shows help. -/
  | help
  deriving DecidableEq, Repr

/-- The command with a name. -/
def CommandName.ofWord? (word : String) : Option CommandName :=
  if word = "render" ∨ word = "r" then some render
  else if word = "scan" ∨ word = "s" then some scan
  else if word = "help" then some help
  else none

/-- The options before a command (`none`) or after it. -/
def optionsOf : Option CommandName → List OptionName
  | none => [.color, .config, .verbose, .help, .version]
  | some .render => [.color, .config, .verbose, .help, .output, .classPrefix, .classes, .format]
  | some .scan =>
    [.color, .config, .verbose, .help, .output, .classPrefix, .classes, .format, .pretty]
  | some .help => []

/-- The long name of an option. -/
def OptionName.long : OptionName → String
  | color => "color"
  | config => "config"
  | verbose => "verbose"
  | help => "help"
  | version => "version"
  | output => "output"
  | classPrefix => "prefix"
  | classes => "class"
  | format => "format"
  | pretty => "pretty"

/-- The letter of an option. -/
def OptionName.short? : OptionName → Option Char
  | config => some 'C'
  | verbose => some 'v'
  | help => some 'h'
  | version => some 'V'
  | output => some 'o'
  | format => some 'f'
  | pretty => some 'p'
  | _ => none

/-! ### What is given -/

/-- What was given so far. -/
structure Given where
  /-- When output is coloured. -/
  color : Option Color := none
  /-- The settings file. -/
  config : Option Path := none
  /-- Whether details are logged. -/
  verbose : Bool := false
  /-- The output file or directory. -/
  output : Option Path := none
  /-- The settings for icons. -/
  icons : Overrides := {}
  /-- The format of all inputs. -/
  format : Option DocumentFormat := none
  /-- Whether the report is written with one element per line. -/
  pretty : Bool := false
  /-- The paths. -/
  paths : List Path := []
  deriving DecidableEq, Repr

/-- Cuts a text at its commas. -/
def splitCommas (text : List Char) : List (List Char) :=
  match text with
  | [] => [[]]
  | c :: cs =>
    if c = ',' then [] :: splitCommas cs
    else match splitCommas cs with
      | [] => [[c]]
      | part :: rest => (c :: part) :: rest

/-- A value that was not given before. -/
def once {α : Type} (before : Option α) (value : Option α) : Except Stop (Option α) :=
  if before.isSome then .error .repeatedOption
  else match value with
    | some value => .ok (some value)
    | none => .error .wrongValue

/-- A path, which must not be empty. -/
def pathOf? (word : String) : Option Path :=
  if word = "" then none else some (.ofString word)

namespace Given

/-- Takes an option with its value. -/
def option (given : Given) (name : OptionName) (value : Option String) : Except Stop Given := do
  match name, value with
  | .help, _ => .error .help
  | .version, _ => .error .version
  | .verbose, _ =>
    if given.verbose then .error .repeatedOption else return { given with verbose := true }
  | .pretty, _ =>
    if given.pretty then .error .repeatedOption else return { given with pretty := true }
  | _, none => .error .wrongValue
  | .color, some word => return { given with color := ← once given.color (Color.ofName? word) }
  | .config, some word => return { given with config := ← once given.config (pathOf? word) }
  | .output, some word => return { given with output := ← once given.output (pathOf? word) }
  | .format, some word =>
    let format ← once given.format (DocumentFormat.ofName? word)
    return { given with format }
  | .classPrefix, some word =>
    let classPrefix ← once given.icons.classPrefix (some word)
    return { given with icons := { given.icons with classPrefix } }
  | .classes, some word =>
    let more := (splitCommas word.toList).map String.ofList
    let classes := some (given.icons.classes.getD [] ++ more)
    return { given with icons := { given.icons with classes } }

/-- Takes paths. -/
def addPaths (given : Given) (words : List String) : Except Stop Given :=
  match words.mapM pathOf? with
  | some paths => .ok { given with paths := given.paths ++ paths }
  | none => .error .wrongValue

end Given

/-! ### Words in turn -/

/-- What was read and not looked at yet. -/
inductive Pending where
  /-- Nothing. -/
  | nothing
  /-- An option that takes a value, and its value if that was read. -/
  | option (name : OptionName) (value : Option String)
  /-- Paths. -/
  | paths (words : List String)
  deriving DecidableEq, Repr

/-- Where reading has come to. -/
structure Reading where
  /-- What was given. -/
  given : Given := {}
  /-- What was not looked at yet. -/
  pending : Pending := .nothing
  /-- Whether `--` was read. -/
  onlyPaths : Bool := false
  deriving DecidableEq, Repr

namespace Reading

/-- Whether the option before waits for its value. -/
def expectsValue (reading : Reading) : Bool :=
  match reading.pending with
  | .option _ none => true
  | _ => false

/-- Looks at what was not looked at yet. -/
def settle (reading : Reading) : Except Stop Reading := do
  let given ← match reading.pending with
    | .nothing => pure reading.given
    | .option name value => reading.given.option name value
    | .paths words => reading.given.addPaths words
  return { reading with given, pending := .nothing }

/-- Takes an option that has its value or needs none. -/
def complete (reading : Reading) (name : OptionName) (value : Option String) :
    Except Stop Reading := do
  let reading ← reading.settle
  return { reading with given := ← reading.given.option name value }

/-- Takes an option whose value follows. -/
def await (reading : Reading) (name : OptionName) : Except Stop Reading := do
  return { ← reading.settle with pending := .option name none }

/-- Reads an option with two hyphens. -/
def long (reading : Reading) (options : List OptionName) (body : List Char) :
    Except Stop Reading :=
  let name := body.takeWhile (· != '=')
  let value := match body.dropWhile (· != '=') with
    | _ :: value => some (String.ofList value)
    | [] => none
  match options.find? (·.long == String.ofList name) with
  | none => .error .unknownOption
  | some name =>
    if name.takesValue then
      if value.isSome then reading.complete name value else reading.await name
    else if value.isSome then .error .needlessValue
    else reading.complete name none

/-- Reads options behind one hyphen. The last one may have its value attached, with or without an
equals sign. -/
def short (options : List OptionName) : Reading → List Char → Except Stop Reading
  | reading, [] => .ok reading
  | reading, c :: rest =>
    match options.find? (·.short? == some c) with
    | none => .error .unknownOption
    | some name =>
      if name.takesValue then
        match rest with
        | [] => reading.await name
        | '=' :: value => reading.complete name (some (String.ofList value))
        | value => reading.complete name (some (String.ofList value))
      else do short options (← reading.complete name none) rest

/-- Reads a path. Before a command there are no paths. -/
def path (reading : Reading) (command : Option CommandName) (word : String) :
    Except Stop Reading :=
  if command.isNone then
    if reading.onlyPaths && (CommandName.ofWord? word).isSome then .error .unknownOption
    else .error .unknownCommand
  else match reading.pending with
    | .paths words => .ok { reading with pending := .paths (words ++ [word]) }
    | _ => do return { ← reading.settle with pending := .paths [word] }

/-- Reads a word that is no command. -/
def word (reading : Reading) (command : Option CommandName) (word : String) :
    Except Stop Reading :=
  if reading.onlyPaths then reading.path command word
  else match word.toList with
    | ['-', '-'] => .ok { reading with onlyPaths := true }
    | '-' :: '-' :: body => reading.long (optionsOf command) body
    | '-' :: c :: rest => short (optionsOf command) reading (c :: rest)
    | _ =>
      match reading.pending with
      | .option name none => .ok { reading with pending := .option name (some word) }
      | _ => reading.path command word

end Reading

/-! ### Command lines -/

/-- Reads the words after a command. -/
def readAfter (command : CommandName) (words : List String) : Except Stop Given := do
  let start : Reading := {}
  let reading ← words.foldlM (fun reading word => reading.word (some command) word) start
  return (← reading.settle).given

/-- Reads the words up to a command: what they give, and the command with the words after it. -/
def readBefore : Reading → List String →
    Except Stop (Reading × Option (CommandName × List String))
  | reading, [] => .ok (reading, none)
  | reading, word :: rest =>
    let command := if reading.onlyPaths || reading.expectsValue then none
      else CommandName.ofWord? word
    match command with
    | some command => .ok (reading, some (command, rest))
    | none => do readBefore (← reading.word none word) rest

/-- Why a line that asks for help on something is not run. -/
def helpOn : List String → Stop
  | [] => .help
  | [word] => if (CommandName.ofWord? word).isSome then .help else .unknownCommand
  | _ => .unknownCommand

/-- Puts together what is given before and after a command. What stands after it counts more. -/
def argumentsOf (before after : Given) (command : Command) : Arguments where
  color := (after.color.or before.color).getD .auto
  config := (after.config.or before.config).getD Config.defaultPath
  verbose := before.verbose || after.verbose
  command := command

/-- Reads a command line without the name of the program. -/
def readArguments (words : List String) : Except Stop Arguments := do
  match ← readBefore {} words with
  | (_, some (.help, rest)) => .error (helpOn rest)
  | (reading, some (.render, rest)) =>
    let after ← readAfter .render rest
    let before := (← reading.settle).given
    return argumentsOf before after
      (.render ⟨after.paths, after.output, after.icons, after.format⟩)
  | (reading, some (.scan, rest)) =>
    let after ← readAfter .scan rest
    let before := (← reading.settle).given
    return argumentsOf before after
      (.scan ⟨after.paths, after.icons, after.format, after.pretty, after.output⟩)
  | (reading, none) =>
    let before := (← reading.settle).given
    if before = {} then .error .noArguments else .error .noCommand

end IconMarkup.CommandLine
