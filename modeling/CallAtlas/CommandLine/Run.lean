import CallAtlas.Batch
import CallAtlas.CommandLine.Parse
import CallAtlas.Project.Lookup
import CallAtlas.View.Session

/-!
# Running the program

`run` does what the arguments ask for, on a file system: it checks the settings, indexes the project
and then writes a graph for every call site or prepares the sessions that a server shows. What it
prints is part of the result.
-/

namespace CallAtlas.CommandLine

/-- The sessions that are to be served, and where. -/
structure Serving where
  sessions : Sessions
  config : GraphConfig
  host : String
  portNumber : Nat

/-- How a run ends: the exit code, the lines that it prints, and what it serves. -/
structure Outcome where
  exitCode : Nat := 0
  output : List String := []
  errors : List String := []
  serving : Option Serving := none

/-- What a run does not handle. -/
inductive Failed where
  | settings (error : SettingsError)
  | project (error : ProjectError)
  | batch (error : BatchError)

/-- The settings file with the settings of the arguments over it. -/
def mergedSettings (platform : Platform) (fs : FileSystem) (arguments : Settings) :
    Except SettingsError Settings := do
  let base ← match (Settings.get? arguments "config").filter Json.Value.isGiven with
    | some (.string file) => Settings.load platform fs (Path.ofString file)
    | _ => pure []
  return (arguments.filter fun (name, _) => name ≠ "config").foldl
    (fun settings (name, value) => Json.insertMember settings name value) base

/-- Whether an entry of the log is printed. -/
def isShown (verbose : Bool) (e : LogEntry) : Bool :=
  (if verbose then LogLevel.info else .warning).rank ≤ e.level.rank

/-- The line of an entry of the log. -/
def logLine (e : LogEntry) : String := e.level.text ++ " " ++ e.source ++ ": " ++ e.message

/-- The lines of the log that are printed. -/
def shownLines (o : Options) (logs : List LogEntry) : List String :=
  (logs.filter (isShown o.verbose)).map logLine

/-- The lines that sum up a run. -/
def summary (o : Options) (count : Nat) (noun : String) : List String := [
  "Project root: " ++ o.root.text,
  "  Entry files : " ++ toString o.entry.length,
  "  Direction   : " ++ o.direction.text,
  "  " ++ noun ++ String.ofList (List.replicate (12 - noun.length) ' ') ++ ": " ++ toString count]

/-- Prepares the sessions of all call sites. -/
def serveAll (o : Options) (m : Machine) (r : Resolver Unit) (fs : FileSystem) :
    Except Failed Outcome := do
  let collection ← (o.collect fs).mapError fun e => .batch (.source e)
  let (trees, growLogs) := o.growAll m r collection.sites
  if trees.isEmpty then
    return { output := ["No call sites found"],
             errors := shownLines o (collection.logs ++ growLogs) }
  else
    let (sessions, sessionLogs) := Sessions.ofTrees trees (some o.root)
    return {
      output := summary o sessions.keys.length "Graphs" ++
        ["Serving on http://" ++ o.host ++ ":" ++ toString o.portNumber ++ "/"]
      errors := shownLines o (collection.logs ++ growLogs ++ sessionLogs)
      serving := some
        { sessions, config := o.graphConfig m.standard, host := o.host,
          portNumber := o.portNumber } }

/-- Writes the graphs of all call sites. -/
def writeAll (o : Options) (m : Machine) (r : Resolver Unit) :
    ExceptT Failed (StateM FileSystem) Outcome := do
  let report ← ExceptT.adapt Failed.batch (o.runBatch m r)
  return {
    output := summary o report.written.length "Images" ++ report.written.map fun path =>
    "    - " ++ path.text
    errors := shownLines o report.logs }

/-- Does what checked options ask for. -/
def runOptions (o : Options) (m : Machine) : ExceptT Failed (StateM FileSystem) Outcome := do
  let fs ← get
  match indexProject fs o.root with
  | .error (.source (.text .invalidSyntax)) =>
    return { exitCode := 2, errors := ["error: cannot parse project"] }
  | .error e => throw (.project e)
  | .ok p =>
    if o.serve then
      match serveAll o m (p.resolver fs) fs with
      | .ok outcome => return outcome
      | .error e => throw e
    else writeAll o m (p.resolver fs)

/-- The name of the program. -/
def programName : String := "callscope"

/-- Does what the arguments ask for. -/
def run (m : Machine) (arguments : List String) : ExceptT Failed (StateM FileSystem) Outcome := do
  match parseArguments arguments with
  | .error .help => return {}
  | .error (.usage e) =>
    return { exitCode := 2, errors := [programName ++ ": error: " ++ e.message] }
  | .ok settings =>
    let fs ← get
    match (do (← mergedSettings m.platform fs settings).check m.platform fs) with
    | .error (.config e) => return { exitCode := 2, errors := ["error: " ++ e.message] }
    | .error e => throw (.settings e)
    | .ok o => runOptions o m

end CallAtlas.CommandLine
