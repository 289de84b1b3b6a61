import DocRoutes.CommandLine.Arguments
import DocRoutes.Inspect

/-!
# The program

A run reads the arguments, then the configuration, then the units, and prints the listing of their
routes. It ends with code 0 if all went well or only help or the version was asked for, with 1 if
the configuration or a unit is bad, and with 2 if the arguments are.
-/

namespace DocRoutes

/-- How a run ends. -/
structure Exit where
  code : Nat
  output : String := ""
  /-- What is wrong. -/
  error : Option String := none
  log : List Log.Event := []

namespace Program

def version : String := "tagbridge 0.1.0"

def usage : String :=
  "\n".intercalate [
    "Usage: tagbridge [OPTIONS] routes [OPTIONS] [--controller NAME] PATHS...",
    "",
    "Print the routes that the documentation comments of source units declare.",
    "",
    "Options:",
    "  -f, --format FORMAT    table, json or quiet",
    "      --no-color         no colors",
    "  -c, --config FILE      configuration, or TAGBRIDGE_CONFIG",
    "  -v, --verbose          show log events; twice for more",
    "  -h, --help             this text",
    "  -V, --version          the version"]

def UsageError.message : UsageError → String
  | .helpWanted => usage
  | .versionWanted => version
  | .nothingGiven => usage
  | .missingCommand => "a command is missing"
  | .unknownCommand => "no such command"
  | .missingPath => "a path is missing"
  | .badValue => "a value is missing or cannot be used"
  | .unwantedValue => "an option takes no value"
  | .unknownOption => "no such option"
  | .repeatedOption => "an option is given twice"

/-- How a run ends that does not get past the arguments. -/
def refuse (e : UsageError) : Exit :=
  match e with
  | .helpWanted => { code := 0, output := usage ++ "\n" }
  | .versionWanted => { code := 0, output := version ++ "\n" }
  | e => { code := 2, error := some (UsageError.message e) }

/-- An error with its causes in one line. -/
def errorLine (causes : List String) : String := "Error: " ++ ": ".intercalate causes

def configuration (files : Files) (path : Option String) : Except ConfigError Configuration :=
  match path with
  | none => .ok {}
  | some path => Configuration.ofFile files path

/-- Carry out what the arguments ask for. Colours are for terminals only. -/
def execute (files : Files) (terminal : Bool) (c : CommandLine) : Exit :=
  match configuration files c.config with
  | .error e =>
    let context := "Failed to load " ++ c.config.getD "default configuration"
    { code := 1, error := some (errorLine (context :: (InspectError.config e).chain)) }
  | .ok config =>
    let (result, events) := inspect files config c.paths c.controller
    let log := (events.map (·.toLog)).filter fun e => c.logLevel.rank ≤ e.level.rank
    match result with
    | .error e => { code := 1, error := some (errorLine e.chain), log }
    | .ok docs =>
      let listing : Listing := { format := c.format, colours := terminal && !c.noColour }
      { code := 0, output := listing.render docs ++ "\n", log }

/-- Run the program with the arguments that follow its name, and the configuration that the
environment names. -/
def run (files : Files) (environment : Option String) (terminal : Bool) (args : List String) :
    Exit :=
  match CommandLine.parse environment args with
  | .error e => refuse e
  | .ok c => execute files terminal c

/-- The paths of the units that a run may read. -/
def lookups (suffix : String) (c : CommandLine) : List String :=
  c.paths.flatMap fun path => [path, path ++ suffix]

end Program

end DocRoutes
