import CodeManifest.Environment
import CodeManifest.Failure
import CodeManifest.Log

namespace CodeManifest.Log

open Files

/-- A destination of reports. -/
inductive Handler where
  | errorStream
  | file (path : Path)
  deriving DecidableEq, Repr

/-- The least level of reports that count, and the destinations, each with the least level that it
takes. -/
structure Output where
  level : Level := .warning
  handlers : List (Handler × Level) := []
  deriving DecidableEq, Repr

namespace Output

/-- The disk with a report in every log file that takes it. -/
def emit (o : Output) (now : Instant) (d : Disk) (r : Record) : Disk :=
  if o.level.admits r.level then
    o.handlers.foldl (fun d h =>
      match h with
      | (.file p, level) =>
        if level.admits r.level then
          match d.append p (r.line now) now.micros with
          | .ok d => d
          | .error _ => d
        else d
      | (.errorStream, _) => d) d
  else d

/-- The file that reports go to besides the error stream, if there is one. The caller counts before
the environment. -/
def fileOf (e : Environment) (file : Option Text) : Option Text :=
  [file.getD [], e.logFile].find? (! ·.isEmpty)

/-- The level that is asked for. The caller counts before the environment. -/
def levelOf (e : Environment) (debug : Option Bool) : Level :=
  if debug.getD e.wantsDebug then .debug else .info

/-- The absolute path of a log file, in which double dots take back names whatever they are. -/
def pathOf (d : Disk) (file : Text) : Path := (d.here.join (Path.ofText file)).normal

/-- Makes ready a log file: the directories that lead to it, and the file itself. -/
def openFile (d : Disk) (now : Instant) (file : Text) : Disk × Except Error Path :=
  match d.makeDirectories (Path.ofText file).parent with
  | (d, some e) => (d, .error e)
  | (d, none) =>
    let p := pathOf d file
    match d.append p [] now.micros with
    | .ok d => (d, .ok p)
    | .error e => (d, .error e)

/-- The output to the error stream, and to a file if there is one. -/
def toward (level : Level) (file : Option Path) : Output :=
  ⟨level, (.errorStream, level) :: file.toList.map fun p => (.file p, level)⟩

/-- Sets up the output. Yields the disk afterwards, and the new output or why there is none. -/
def configure (e : Environment) (debug : Option Bool) (file : Option Text) (now : Instant) (d : Disk) :
    Disk × Except Error Output :=
  let level := levelOf e debug
  match fileOf e file with
  | none => (d, .ok (toward level none))
  | some f =>
    match openFile d now f with
    | (d, .ok p) => (d, .ok (toward level (some p)))
    | (d, .error e) => (d, .error e)

/-- The first report of an output that goes to a file. -/
def opening (file : Text) : Record := ⟨[], .debug, "Logging to file: ".toList ++ file⟩

end Output

/-- An output in use, and the reports that it let through. -/
structure Session where
  disk : Disk
  output : Output := {}
  now : Instant
  shown : List Record := []
  /-- what was printed -/
  printed : Text := []

namespace Session

/-- Reports something. -/
def report (s : Session) (r : Record) : Session :=
  { s with
    disk := s.output.emit s.now s.disk r
    shown := if s.output.level.admits r.level then s.shown ++ [r] else s.shown }

/-- Sets up the output anew. If that fails, the output stays as it was. -/
def configure (s : Session) (e : Environment) (debug : Option Bool) (file : Option Text) :
    Session × Option Error :=
  match Output.configure e debug file s.now s.disk with
  | (d, .error e) => ({ s with disk := d }, some e)
  | (d, .ok o) =>
    let s := { s with disk := d, output := o }
    match Output.fileOf e file with
    | some f => (s.report (Output.opening f), none)
    | none => (s, none)

@[simp] theorem report_output (s : Session) (r : Record) : (s.report r).output = s.output := rfl

theorem configure_of_error {s t : Session} {env : Environment} {debug : Option Bool}
    {file : Option Text} {e : Error} (h : s.configure env debug file = (t, some e)) :
    t.output = s.output := by
  unfold configure at h
  split at h
  · simp only [Prod.mk.injEq] at h
    rw [← h.1]
  · dsimp only at h
    split at h <;> simp at h

theorem configure_outputs {s t : Session} {env : Environment} {debug : Option Bool}
    {file : Option Text} (h : s.configure env debug file = (t, none)) :
    ∃ p, t.output = Output.toward (Output.levelOf env debug) p ∧
      (p.isSome = (Output.fileOf env file).isSome) := by
  unfold configure Output.configure at h
  cases hf : Output.fileOf env file with
  | none =>
    simp only [hf, Prod.mk.injEq] at h
    exact ⟨none, by rw [← h.1], rfl⟩
  | some f =>
    simp only [hf] at h
    rcases ho : Output.openFile s.disk s.now f with ⟨d, _ | p⟩
    · simp [ho] at h
    · simp only [ho, Prod.mk.injEq] at h
      exact ⟨some p, by rw [← h.1]; rfl, rfl⟩

end Session

end CodeManifest.Log
