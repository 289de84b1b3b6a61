import DocRoutes.Doc.Extract
import DocRoutes.Log
import DocRoutes.Route.Interpret

/-!
# Source units

A source unit documents one controller. The first record with a module tag names it, and every
other record contributes its route; records that declare no route are skipped and reported.
-/

namespace DocRoutes

/-! ## Errors and events -/

inductive UnitError where
  | missingModule
  | emptyModuleName
  | extraction (reason : String)
  deriving DecidableEq, Repr

def UnitError.message : UnitError → String
  | .missingModule => "No @module tag found in source unit"
  | .emptyModuleName => "@module tag has no controller name"
  | .extraction reason => "Comment extraction failed: " ++ reason

/-- What the reading of a unit reports. -/
inductive UnitEvent where
  | namelessParam (param : NamelessParam)
  | skipped (controller : String) (context : Option String) (reason : Rejection)
  deriving DecidableEq, Repr

def UnitEvent.toLog : UnitEvent → Log.Event
  | .namelessParam p =>
    ⟨.warn, "@param tag has no name", [("line", toString p.line), ("payload", p.payload)]⟩
  | .skipped controller context reason =>
    ⟨.trace, "Skipping record: " ++ reason.message,
      [("controller", controller), ("context", Log.orNone context)]⟩

/-! ## Controllers from records -/

/-- The route of each record, or why there is none. -/
def interpretAll (controller : String) : List DocRecord → List Route × List UnitEvent
  | [] => ([], [])
  | r :: rest =>
    let (routes, events) := interpretAll controller rest
    match r.toRoute with
    | .ok route => (route :: routes, events)
    | .error reason => (routes, .skipped controller r.context reason :: events)

/-- The first record with a module tag, and the other records in their order. -/
def splitModule : List DocRecord → Option (DocRecord × List DocRecord)
  | [] => none
  | r :: rest =>
    if r.isModule then some (r, rest)
    else (splitModule rest).map fun (m, others) => (m, r :: others)

/-- The name in a module record. -/
def DocRecord.moduleName (r : DocRecord) : String :=
  match r.firstTag? Tag.moduleKind with
  | some tag => Text.trimmed tag.payload
  | none => ""

/-- The controller that records document, and the records skipped. -/
def ControllerDoc.ofRecords (records : List DocRecord) :
    Except UnitError (ControllerDoc × List UnitEvent) :=
  match splitModule records with
  | none => .error .missingModule
  | some (m, others) =>
    if m.moduleName.isEmpty then .error .emptyModuleName
    else
      let (routes, events) := interpretAll m.moduleName others
      .ok (⟨m.moduleName, m.description, routes⟩, events)

/-! ## Units -/

/-- A way to get the records of a source text. -/
structure Extractor where
  run : String → Except String (List DocRecord × List NamelessParam)

/-- The records of documentation comments. -/
def Extractor.comments : Extractor := ⟨fun source => .ok (extract source)⟩

/-- An extractor that refuses every text. -/
def Extractor.refusing (reason : String) : Extractor := ⟨fun _ => .error reason⟩

/-- Read a source unit: the controller it documents, and what was to report on the way. -/
def readUnit (extractor : Extractor) (source : String) :
    Except UnitError ControllerDoc × List UnitEvent :=
  match extractor.run source with
  | .error reason => (.error (.extraction reason), [])
  | .ok (records, nameless) =>
    let warnings := nameless.map .namelessParam
    match ControllerDoc.ofRecords records with
    | .error e => (.error e, warnings)
    | .ok (doc, skipped) => (.ok doc, warnings ++ skipped)

end DocRoutes
