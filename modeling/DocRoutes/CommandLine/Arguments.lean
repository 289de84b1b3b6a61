import DocRoutes.Listing.Format
import DocRoutes.Log

/-!
# Arguments

The arguments name a command, and options may stand before and after its name. After the name there
is one more option, and the other arguments are the paths of units. An option has a long name, after
two dashes, or a short one of one letter, after one dash; letters can share a dash. Some options take
a value: attached, after an equals sign, or as the next argument. Two dashes alone end the options.

An option that takes a value waits for it, and paths wait for more paths. What waits is accepted
when the next option comes or the arguments end, and only then is it found to be good or bad. So an
unknown option comes before a bad value in front of it, and all that is wrong after the command's
name before what waits in front of the name.

Options before and after the name are read apart, and those after the name win.
-/

namespace DocRoutes

/-- Why the arguments are not run. -/
inductive UsageError where
  | helpWanted
  | versionWanted
  /-- Nothing was given at all. -/
  | nothingGiven
  | missingCommand
  | unknownCommand
  /-- No path was given. -/
  | missingPath
  /-- A value is missing, empty or not among those possible. -/
  | badValue
  /-- A value was given to an option that takes none. -/
  | unwantedValue
  | unknownOption
  | repeatedOption
  deriving DecidableEq, Repr

/-- What the arguments ask for. -/
structure CommandLine where
  format : ListingFormat := .table
  noColour : Bool := false
  config : Option String := none
  verbosity : Nat := 0
  paths : List String
  controller : Option String := none
  deriving DecidableEq, Repr

namespace CommandLine

/-- The least level of events to be shown. -/
def logLevel (c : CommandLine) : Log.Level :=
  match c.verbosity with
  | 0 => .warn
  | 1 => .debug
  | _ => .trace

/-! ## Options -/

inductive Flag where
  | noColour
  | verbose
  | help
  | version
  deriving DecidableEq, Repr

/-- What takes values. -/
inductive Slot where
  | format
  | config
  | controller
  | paths
  deriving DecidableEq, Repr

inductive Opt where
  | flag (f : Flag)
  | slot (s : Slot)

/-- Before the name of the command, or after it. -/
inductive Level where
  | top
  | command
  deriving DecidableEq, Repr

def longOption? (level : Level) (name : List Char) : Option Opt :=
  if name = "format".toList then some (.slot .format)
  else if name = "no-color".toList then some (.flag .noColour)
  else if name = "config".toList then some (.slot .config)
  else if name = "verbose".toList then some (.flag .verbose)
  else if name = "help".toList then some (.flag .help)
  else if name = "version".toList ∧ level = .top then some (.flag .version)
  else if name = "controller".toList ∧ level = .command then some (.slot .controller)
  else none

def shortOption? (level : Level) (name : Char) : Option Opt :=
  if name = 'f' then some (.slot .format)
  else if name = 'c' then some (.slot .config)
  else if name = 'v' then some (.flag .verbose)
  else if name = 'h' then some (.flag .help)
  else if name = 'V' ∧ level = .top then some (.flag .version)
  else none

/-! ## What was given -/

/-- What was given at one level. -/
structure Given where
  format : Option ListingFormat := none
  noColour : Bool := false
  config : Option String := none
  verbosity : Nat := 0
  controller : Option String := none
  paths : List String := []
  deriving DecidableEq, Repr

def maxVerbosity : Nat := 255

def formatOfName? (name : String) : Option ListingFormat :=
  if name = "table" then some .table
  else if name = "json" then some .json
  else if name = "quiet" then some .quiet
  else none

def Given.setFlag (g : Given) : Flag → Except UsageError Given
  | .noColour => if g.noColour then .error .repeatedOption else .ok { g with noColour := true }
  | .verbose => .ok { g with verbosity := min (g.verbosity + 1) maxVerbosity }
  | .help => .error .helpWanted
  | .version => .error .versionWanted

/-- Accept the value of an option, which may be given once. -/
def Given.setValue (g : Given) (slot : Slot) (value : String) : Except UsageError Given :=
  match slot with
  | .format =>
    if g.format.isSome then .error .repeatedOption
    else match formatOfName? value with
      | some format => .ok { g with format := some format }
      | none => .error .badValue
  | .config =>
    if g.config.isSome then .error .repeatedOption
    else if value = "" then .error .badValue
    else .ok { g with config := some value }
  | .controller =>
    if g.controller.isSome then .error .repeatedOption
    else .ok { g with controller := some value }
  | .paths => if value = "" then .error .badValue else .ok { g with paths := g.paths ++ [value] }

/-! ## Reading arguments -/

/-- What waits for values, and the values that came. -/
structure Waiting where
  slot : Slot
  values : List String

/-- The state between two arguments. -/
structure Scan where
  given : Given := {}
  waiting : Option Waiting := none
  /-- Whether the next argument can be the value that an option waits for. -/
  expectsValue : Bool := false

namespace Scan

/-- Accept what waits. -/
def settle (s : Scan) : Except UsageError Scan :=
  match s.waiting with
  | none => .ok { s with expectsValue := false }
  | some w =>
    if w.values.isEmpty then .error .badValue
    else do
      let given ← w.values.foldlM (fun g value => g.setValue w.slot value) s.given
      return { given }

def takeFlag (s : Scan) (f : Flag) : Except UsageError Scan := do
  let s ← s.settle
  return { s with given := ← s.given.setFlag f }

def takeValue (s : Scan) (slot : Slot) (value : String) : Except UsageError Scan := do
  let s ← s.settle
  return { s with given := ← s.given.setValue slot value }

def awaitValue (s : Scan) (slot : Slot) : Except UsageError Scan := do
  let s ← s.settle
  return { s with waiting := some ⟨slot, []⟩, expectsValue := true }

/-- The value that an option waits for. -/
def fill (s : Scan) (value : String) : Scan :=
  { s with
    waiting := s.waiting.map fun w => { w with values := w.values ++ [value] }
    expectsValue := false }

/-- A path, which joins the paths that wait. -/
def takePath (s : Scan) (path : String) : Except UsageError Scan :=
  match s.waiting with
  | some ⟨.paths, paths⟩ => .ok { s with waiting := some ⟨.paths, paths ++ [path]⟩ }
  | _ => do
    let s ← s.settle
    return { s with waiting := some ⟨.paths, [path]⟩ }

/-- A long option: its name, and the value after an equals sign. -/
def takeLong (level : Level) (s : Scan) (name : List Char) (value : Option (List Char)) :
    Except UsageError Scan :=
  match longOption? level name, value with
  | none, _ => .error .unknownOption
  | some (.flag f), none => s.takeFlag f
  | some (.flag _), some _ => .error .unwantedValue
  | some (.slot slot), some value => s.takeValue slot (.ofList value)
  | some (.slot slot), none => s.awaitValue slot

/-- Short options that share a dash. What follows the letter of an option that takes a value is its
value, with or without an equals sign. -/
def takeShort (level : Level) (s : Scan) : List Char → Except UsageError Scan
  | [] => .ok s
  | name :: rest =>
    match shortOption? level name with
    | none => .error .unknownOption
    | some (.flag f) =>
      match s.takeFlag f with
      | .error e => .error e
      | .ok s => takeShort level s rest
    | some (.slot slot) =>
      match rest with
      | [] => s.awaitValue slot
      | '=' :: value => s.takeValue slot (.ofList value)
      | value => s.takeValue slot (.ofList value)

/-- An argument that is no option and no name of a command. -/
def takePlain (level : Level) (s : Scan) (arg : String) : Except UsageError Scan :=
  if s.expectsValue then .ok (s.fill arg)
  else match level with
    | .top => .error .unknownCommand
    | .command => s.takePath arg

def takeArgument (level : Level) (s : Scan) (arg : String) : Except UsageError Scan :=
  match arg.toList with
  | '-' :: '-' :: long =>
    let (name, value) := Text.cutAt '=' long
    s.takeLong level name value
  | '-' :: c :: rest => s.takeShort level (c :: rest)
  | _ => s.takePlain level arg

def commandName : String := "routes"

def helpName : String := "help"

/-- An argument after two dashes alone. -/
def takeTrailing (level : Level) (s : Scan) (arg : String) : Except UsageError Scan :=
  match level with
  | .top => .error (if arg = commandName ∨ arg = helpName then .unknownOption else .unknownCommand)
  | .command => s.takePath arg

/-- What comes of asking for help on something. -/
def helpOn : List String → UsageError
  | [] => .helpWanted
  | [topic] => if topic = commandName ∨ topic = helpName then .helpWanted else .unknownCommand
  | _ => .unknownCommand

/-- Read arguments. At the top, the arguments after the name of the command are left over. -/
def read (level : Level) (s : Scan) : List String → Except UsageError (Scan × Option (List String))
  | [] => .ok (s, none)
  | arg :: rest =>
    if level = .top ∧ ¬s.expectsValue ∧ arg = commandName then .ok (s, some rest)
    else if level = .top ∧ ¬s.expectsValue ∧ arg = helpName then .error (helpOn rest)
    else if arg = "--" then
      (rest.foldlM (takeTrailing level) { s with expectsValue := false }).map (·, none)
    else
      match s.takeArgument level arg with
      | .error e => .error e
      | .ok s => read level s rest

end Scan

/-! ## The whole line -/

/-- What was given at a level, once nothing waits any more. A configuration in the environment
stands in for one that was not given, and must not be empty then. -/
def finish (environment : Option String) (s : Scan) : Except UsageError Given := do
  let s ← s.settle
  if s.given.config.isNone ∧ environment = some "" then .error .badValue else .ok s.given

def readCommand (environment : Option String) (args : List String) : Except UsageError Given := do
  let (s, _) ← Scan.read .command {} args
  let given ← finish environment s
  if given.paths.isEmpty then .error .missingPath else .ok given

/-- What was given at the two levels together. -/
def combine (environment : Option String) (top command : Given) : CommandLine where
  format := (command.format <|> top.format).getD .table
  noColour := command.noColour || top.noColour
  config := command.config <|> top.config <|> environment
  verbosity := if command.verbosity = 0 then top.verbosity else command.verbosity
  paths := command.paths
  controller := command.controller

/-- Read the arguments that follow the name of the program, with the configuration that the
environment names. -/
def parse (environment : Option String) (args : List String) : Except UsageError CommandLine := do
  match ← Scan.read .top {} args with
  | (s, some rest) =>
    let command ← readCommand environment rest
    let top ← finish environment s
    return combine environment top command
  | (s, none) =>
    let top ← finish environment s
    .error (if top = {} ∧ environment = none then .nothingGiven else .missingCommand)

end CommandLine

end DocRoutes
