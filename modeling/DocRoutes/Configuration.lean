import DocRoutes.Controller.Failure
import DocRoutes.Files.Basic
import DocRoutes.Text.Blank
import DocRoutes.Text.Quoted
import DocRoutes.Toml.Reader

/-!
# Configuration

Two settings: the property of a failure that holds its HTTP status, and the suffix that is tried on
paths of units. A TOML document may give either of them; what else it says does not matter. The
property must not be blank, and the suffix must not lead to another directory.
-/

namespace DocRoutes

open Text

/-! ## Errors -/

inductive ConfigError where
  | file (fault : ReadFault)
  /-- The text is no TOML document, or a setting in it is no string. -/
  | toml (detail : String)
  | invalid (field reason : String)
  deriving DecidableEq, Repr

def ConfigError.message : ConfigError → String
  | .file fault => "Failed to read config file: " ++ fault.message
  | .toml detail => "Failed to parse config TOML: " ++ detail
  | .invalid field reason => "Invalid configuration field " ++ field ++ ": " ++ reason

/-! ## Settings -/

structure Configuration where
  statusProperty : String := Failure.defaultStatusProperty
  sourceSuffix : String := ".rs"
  deriving DecidableEq, Repr

namespace Configuration

def statusPropertyField : String := "error_status_property"

def sourceSuffixField : String := "source_suffix"

def isSeparator (c : Char) : Bool := c = '/' || c = '\\'

/-- The first setting that cannot be used. -/
def fault? (c : Configuration) : Option ConfigError :=
  if (trimmed c.statusProperty).isEmpty then some (.invalid statusPropertyField "must not be empty")
  else if c.sourceSuffix.toList.any isSeparator then
    some (.invalid sourceSuffixField (quoted c.sourceSuffix ++ " contains a path separator"))
  else none

def validate (c : Configuration) : Except ConfigError Configuration :=
  match c.fault? with
  | some error => .error error
  | none => .ok c

/-- A setting in a document, or its default. -/
def setting (entries : Toml.Entries) (field default : String) : Except ConfigError String :=
  match entries.get? field with
  | none => .ok default
  | some (.string s) => .ok s
  | some _ => .error (.toml (field ++ " is not a string"))

def ofToml (text : String) : Except ConfigError Configuration :=
  match Toml.read? text with
  | none => .error (.toml "not a TOML document")
  | some entries => do
    let defaults : Configuration := {}
    let statusProperty ← setting entries statusPropertyField defaults.statusProperty
    let sourceSuffix ← setting entries sourceSuffixField defaults.sourceSuffix
    validate { statusProperty, sourceSuffix }

def ofFile (files : Files) (path : String) : Except ConfigError Configuration :=
  match files.readText path with
  | .error fault => .error (.file fault)
  | .ok text => ofToml text

end Configuration

end DocRoutes
