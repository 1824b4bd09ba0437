import EditionMarket.Configuration
import EditionMarket.Event.Log
import EditionMarket.Files.Tree
import EditionMarket.Json.Reader
import EditionMarket.Text.Blank

/-!
# Event logs in files

An event file has one line for every event. It stands alone, or in a directory for one run, next to
which a link named `latest` leads to the directory of the last run. Whoever opens an event file empties
it.

What is not said when a file is opened is taken from raw settings.
-/

namespace EditionMarket

/-- The number of recent events that is meant if nobody says how many. -/
def recentCount (raw : Raw.Fields) : Option Int → Int
  | some count => count
  | none =>
    match Configuration.lookup raw "logging.default_recent" with
    | some (.int n) => n
    | some (.bool b) => if b then 1 else 0
    | _ => 50

/-- A log of events in a file. -/
structure EventFile where
  /-- What the clock shows. -/
  time : String
  path : Path
  logsDir : Option Path
  runId : Option String
  /-- The number of the last event. -/
  sequence : Nat := 0
deriving DecidableEq

/-- What is said about an event file when it is opened. -/
structure EventFile.Request where
  outputFile : Option String := none
  logsDir : Option String := none
  runId : Option String := none

namespace EventFile

/-! ## Places -/

/-- A text that is there and not empty. -/
def given? : Option String → Option String
  | some s => if s = "" then none else some s
  | none => none

/-- The text that raw settings have at a path. -/
def configured? (raw : Raw.Fields) (path : String) : Option String :=
  match Configuration.lookup raw path with
  | some (.string s) => some s
  | _ => none

/-- The file for events if neither the caller nor the settings name one. -/
def fallback : String := "fanbase_events.jsonl"

/-- The directory for runs, if there is one: the one that is asked for, or the one of the settings if
there is a run. -/
def logsDirectory? (raw : Raw.Fields) (request : Request) : Option String :=
  match given? request.logsDir, given? request.runId with
  | some directory, _ => some directory
  | none, some _ => given? (configured? raw "logging.logs_dir")
  | none, none => none

/-- The file that events go to. -/
def choosePath (raw : Raw.Fields) (request : Request) : Path :=
  match logsDirectory? raw request, given? request.runId with
  | some directory, some run =>
    ((Path.ofString directory).join (Path.ofString run)).join (Path.ofString "events.jsonl")
  | _, _ =>
    match given? request.outputFile with
    | some file => Path.ofString file
    | none => Path.ofString ((configured? raw "logging.output_file").getD fallback)

/-! ## Opening -/

/-- Makes the directory of a run, and lets `latest` lead to it. -/
def openRun (directory : Path) (run : String) : FilesM Unit := do
  FileTree.makeDirectories (directory.join (Path.ofString run))
  let latest := directory.join (Path.ofString "latest")
  -- A link that leads nowhere is in the way as well.
  if (← get).isLink latest || ((← get).find? latest).isSome then FilesM.change (·.remove latest)
  FilesM.change (·.link latest run)

/-- Opens an event file, which is empty then. -/
def create (time : String) (raw : Raw.Fields) (request : Request) : FilesM EventFile := do
  let path := choosePath raw request
  let directory := logsDirectory? raw request
  match directory, given? request.runId with
  | some directory, some run => openRun (Path.ofString directory) run
  | _, _ => pure ()
  FileTree.makeDirectories path.parent
  FilesM.change (·.write path "")
  return ⟨time, path, directory.map Path.ofString, request.runId, 0⟩

/-! ## Events -/

/-- Counts an event of which there is no record. -/
def miss (file : EventFile) : EventFile := { file with sequence := file.sequence + 1 }

/-- Why an event is not written. -/
inductive Unwritten
  /-- There is an integer of too many digits in its record. -/
  | record
  | file (fault : FileFault)
deriving DecidableEq

/-- Adds an event. It is numbered even if it cannot be written. Its line is made before the file is opened. -/
def log (file : EventFile) (tree : FileTree) (kind : String) (data : Fields) :
    EventFile × Except Unwritten FileTree :=
  let next := file.miss
  let record := EventRecord.stamp file.time next.sequence kind data
  (next,
    if record.isWritable then (tree.append file.path record.line).mapError .file else .error .record)

/-- Why the events of a file cannot be read. -/
inductive Unreadable
  | file (fault : FileFault)
  /-- A line is no record. -/
  | line (fault : Json.Fault)
deriving DecidableEq

/-- The records in the last lines of a file that are not empty, oldest first; at most `count` of
them. -/
def recent (file : EventFile) (tree : FileTree) (count : Int) : Except Unreadable (List Value) :=
  if count ≤ 0 ∨ tree.find? file.path = none then .ok []
  else match tree.read file.path with
    | .error fault => .error (.file fault)
    | .ok text =>
      let lines := (Text.splitLines text).filter (· ≠ "")
      ((lastRecords count lines).mapM Json.read).mapError .line

end EventFile

end EditionMarket
