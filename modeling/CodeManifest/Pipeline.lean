import CodeManifest.Schema.Scan
import CodeManifest.Tool.Scan

namespace CodeManifest.Pipeline

open Files

/-- The two scans. -/
inductive Task where
  | sources
  | schemas
  deriving DecidableEq, Repr

/-- A scan on its way, or why it never began, and the files that it has yet to see. -/
structure Lane (α : Type) where
  progress : Except Failure α
  files : List Text

namespace Lane

variable {α : Type}

/-- Goes on with the next file. -/
def step (f : α → Text → α) (l : Lane α) : Lane α :=
  match l.files with
  | [] => l
  | file :: rest => ⟨l.progress.map (f · file), rest⟩

/-- Goes on to the last file. -/
def drain (f : α → Text → α) (l : Lane α) : Except Failure α := l.progress.map (l.files.foldl f)

theorem drain_step (f : α → Text → α) (l : Lane α) : (l.step f).drain f = l.drain f := by
  rcases l with ⟨p, _ | ⟨file, rest⟩⟩
  · rfl
  · cases p <;> rfl

end Lane

/-- Both scans on their way. -/
structure State where
  sources : Lane Tool.Progress
  schemas : Lane Schema.Progress

namespace State

/-- One of the scans moves. -/
def step (d : Disk) (s : State) : Task → State
  | .sources => { s with sources := s.sources.step (Tool.Progress.step d) }
  | .schemas => { s with schemas := s.schemas.step (Schema.Progress.step d) }

/-- The scans move as a schedule has it. -/
def run (d : Disk) (s : State) (schedule : List Task) : State := schedule.foldl (step d) s

theorem run_sources (d : Disk) (s : State) (schedule : List Task) :
    (s.run d schedule).sources.drain (Tool.Progress.step d) = s.sources.drain (Tool.Progress.step d) := by
  induction schedule generalizing s with
  | nil => rfl
  | cons t schedule ih =>
    rw [run, List.foldl_cons, ← run, ih]
    cases t with
    | sources => exact Lane.drain_step _ _
    | schemas => rfl

theorem run_schemas (d : Disk) (s : State) (schedule : List Task) :
    (s.run d schedule).schemas.drain (Schema.Progress.step d) =
      s.schemas.drain (Schema.Progress.step d) := by
  induction schedule generalizing s with
  | nil => rfl
  | cons t schedule ih =>
    rw [run, List.foldl_cons, ← run, ih]
    cases t with
    | sources => rfl
    | schemas => exact Lane.drain_step _ _

end State

/-- What both scans find. -/
structure Result where
  tools : List Tool.Descriptor := []
  resources : List Schema.Resource := []
  records : List Log.Record := []

def report (level : Log.Level) (t : Text) : Log.Record := ⟨"pipeline", level, t⟩

/-- The report of a scan that never began. -/
def failed (name : Text) (e : Failure) : Log.Record :=
  report .error (name ++ " scanner failed: ".toList ++ e.text)

/-- What a scan of source files comes to; one that never began finds nothing. -/
def toolsOf : Except Failure Tool.Progress → List Tool.Descriptor × List Log.Record
  | .ok p => (p.finish.tools, p.finish.records)
  | .error e => ([], [failed "Source" e])

def resourcesOf : Except Failure Schema.Progress → List Schema.Resource × List Log.Record
  | .ok p => (p.finish.resources, p.finish.records)
  | .error e => ([], [failed "Schema" e])

/-- The scans before their first files. -/
def start (d : Disk) (root : Path) (sources sqlFiles dialects : List Text) : State where
  sources := ⟨(Tool.Scanner.ofRoot d root).map ({ scanner := · }), sources⟩
  schemas := ⟨(Schema.Scanner.ofRoot d root dialects).map ({ scanner := · }), sqlFiles⟩

/-- Scans source files and SQL files of the project below a path. When the schedule is over, both
scans go on to their ends. -/
def run (d : Disk) (root : Path) (sources sqlFiles dialects : List Text) (schedule : List Task) :
    Result :=
  let s := (start d root sources sqlFiles dialects).run d schedule
  let (tools, sourceRecords) := toolsOf (s.sources.drain (Tool.Progress.step d))
  let (resources, schemaRecords) := resourcesOf (s.schemas.drain (Schema.Progress.step d))
  let begun := report .debug ("Running pipeline: ".toList ++ Text.ofNat sources.length ++
    " source files, ".toList ++ Text.ofNat sqlFiles.length ++ " SQL files".toList)
  let ended := report .info ("Pipeline complete: ".toList ++ Text.ofNat tools.length ++ " tools, ".toList ++
    Text.ofNat resources.length ++ " resources".toList)
  { tools, resources, records := begun :: sourceRecords ++ schemaRecords ++ [ended] }

end CodeManifest.Pipeline
