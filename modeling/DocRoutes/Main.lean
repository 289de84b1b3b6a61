import DocRoutes.CommandLine.Program

/-!
# The program as an executable

The files that a run may read are read first; then the run itself is a function of their contents.
-/

namespace DocRoutes.Main

/-- What the system says of a file that cannot be read. -/
def readFault : IO.Error → ReadFault
  | .noFileOrDirectory .. => .noEntry
  | .inappropriateType _ code _ => if code = 20 then .notDirectory else .isDirectory
  | e => .other (toString e)

abbrev Snapshot := List (String × Except ReadFault Text.Bytes)

def readAll (paths : List String) : IO Snapshot :=
  paths.mapM fun (path : String) => do
    try
      let content ← IO.FS.readBinFile path
      return (path, .ok content.toList)
    catch e => return (path, .error (readFault e))

/-- Whether a path is that of a file, even of one that cannot be read. -/
def isFile : Except ReadFault Text.Bytes → Bool
  | .ok _ => true
  | .error (.other _) => true
  | .error _ => false

def files (snapshot : Snapshot) : Files where
  isFile path := (snapshot.lookup path).any isFile
  read path := (snapshot.lookup path).getD (.error .noEntry)

/-- The files that a run with these arguments may read. -/
def gather (environment : Option String) (args : List String) : IO Files := do
  match CommandLine.parse environment args with
  | .error _ => return files []
  | .ok c =>
    let settings ← readAll c.config.toList
    match Program.configuration (files settings) c.config with
    | .error _ => return files settings
    | .ok config =>
      let units ← readAll (Program.lookups config.sourceSuffix c)
      return files (settings ++ units)

def logLine (e : Log.Event) : String :=
  " ".intercalate ([e.level.name, e.message] ++ e.fields.map fun (name, value) => name ++ "=" ++ value)

end DocRoutes.Main

open DocRoutes in
def main (args : List String) : IO UInt32 := do
  let environment ← IO.getEnv "TAGBRIDGE_CONFIG"
  let files ← Main.gather environment args
  let terminal ← (← IO.getStdout).isTty
  let result := Program.run files environment terminal args
  for event in result.log do
    IO.eprintln (Main.logLine event)
  IO.print result.output
  if let some message := result.error then
    IO.eprintln message
  return UInt32.ofNat result.code
