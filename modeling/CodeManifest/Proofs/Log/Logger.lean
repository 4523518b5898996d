import CodeManifest.Log.Output
import CodeManifest.Proofs.Files.Room

namespace CodeManifest.Log

open Files

/-- A handler: which of all that were made it is, where its reports go, and the least level that it takes. -/
structure Sink where
  number : Nat
  target : Handler
  level : Level

/-- The level of a logger, the handlers that are attached to it, and how many were made so far. -/
structure Logger where
  level : Level
  sinks : List Sink
  made : Nat

/-- A call that sets up the output, with the disk and the time that it finds. -/
structure Call where
  environment : Environment
  debug : Option Bool
  file : Option Text
  disk : Disk
  now : Instant

namespace Call

variable {c : Call} {f : Text} {p : Path}

/-- The level that the call is for. -/
def level (c : Call) : Level := Output.levelOf c.environment c.debug

/-- The log file that is in effect. -/
def logFile (c : Call) : Option Text := Output.fileOf c.environment c.file

/-- What comes of making the log file ready. -/
def opened (c : Call) (f : Text) : Except Error Path := (Output.openFile c.disk c.now f).2

/-- A log file that was made ready is the one that was asked for. -/
theorem opened_path (h : c.opened f = .ok p) : p = Output.pathOf c.disk f := by
  unfold opened Output.openFile at h
  rcases hmade : c.disk.makeDirectories (Path.ofText f).parent with ⟨d, e⟩
  have hhere := (Disk.grows_of_makeDirectories hmade).2
  rw [hmade] at h
  cases e with
  | some e => cases h
  | none =>
    dsimp only at h
    split at h <;> cases h
    simp [Output.pathOf, hhere]

end Call

/-- The session after a call, and why the call failed. -/
def Session.meet (s : Session) (c : Call) : Session × Option Error :=
  { s with disk := c.disk, now := c.now }.configure c.environment c.debug c.file

/-- The session after calls, of which some may have failed. -/
def Session.after (s : Session) (cs : List Call) : Session := cs.foldl (fun s c => (s.meet c).1) s

namespace Logger

variable {g : Logger} {s : Session} {c : Call} {x : Sink}

/-- Makes a handler, which takes all reports at first. -/
def make (g : Logger) (target : Handler) : Logger × Sink :=
  ({ g with made := g.made + 1 }, ⟨g.made, target, .debug⟩)

/-- Takes a handler away. -/
def detach (g : Logger) (x : Sink) : Logger := { g with sinks := g.sinks.eraseP (·.number = x.number) }

/-- Attaches a handler, unless it is attached already. -/
def attach (g : Logger) (x : Sink) : Logger :=
  if g.sinks.any (·.number = x.number) then g else { g with sinks := g.sinks ++ [x] }

/-- Puts handlers in the place of all that are attached, and gives them and the logger one level. -/
def replace (g : Logger) (level : Level) (new : List Sink) : Logger :=
  let g := { g with level }
  let g := g.sinks.foldl detach g
  new.foldl (fun g x => g.attach { x with level }) g

/-- Sets up the logger, or tells why not. -/
def setUp (g : Logger) (c : Call) : Logger × Option Error :=
  let (g, stream) := g.make .errorStream
  match c.logFile with
  | none => (g.replace c.level [stream], none)
  | some f =>
    match c.opened f with
    | .error e => (g, some e)
    | .ok p =>
      let (g, file) := g.make (.file p)
      (g.replace c.level [stream, file], none)

/-- The logger after calls, of which some may have failed. -/
def run (g : Logger) (cs : List Call) : Logger := cs.foldl (fun g c => (g.setUp c).1) g

/-- Taking away one handler after the other leaves none. -/
theorem foldl_detach (g : Logger) : g.sinks.foldl detach g = { g with sinks := [] } := by
  obtain ⟨level, sinks, made⟩ := g
  induction sinks with
  | nil => rfl
  | cons x sinks ih =>
    -- the first handler is the one that is found, even if another had its number
    have hhead : detach ⟨level, x :: sinks, made⟩ x = ⟨level, sinks, made⟩ := by simp [detach]
    rw [List.foldl_cons, hhead]
    exact ih

theorem attach_of_new (h : ∀ y ∈ g.sinks, y.number ≠ x.number) :
    g.attach x = { g with sinks := g.sinks ++ [x] } := by
  have hnone : g.sinks.any (·.number = x.number) = false := by simpa using h
  simp [attach, hnone]

/-- Handlers that differ from each other and from those attached are attached in their order. -/
theorem foldl_attach {new : List Sink} (h : ((g.sinks ++ new).map Sink.number).Nodup) :
    new.foldl attach g = { g with sinks := g.sinks ++ new } := by
  induction new generalizing g with
  | nil => simp
  | cons x new ih =>
    -- what is attached grows, so the logger stays free in the induction
    have hfresh : ∀ y ∈ g.sinks, y.number ≠ x.number := by
      rw [List.map_append, List.nodup_append] at h
      intro y hy
      exact h.2.2 _ (List.mem_map_of_mem hy) _ (by simp)
    rw [List.foldl_cons, attach_of_new hfresh, ih (by simpa using h)]
    simp

theorem replace_eq (g : Logger) (level : Level) {new : List Sink} (h : (new.map Sink.number).Nodup) :
    g.replace level new = ⟨level, new.map fun x => { x with level }, g.made⟩ := by
  have hnumbers : (new.map fun x => { x with level }).map Sink.number = new.map Sink.number := by
    simp [Function.comp_def]
  have hdetached := foldl_detach { g with level }
  have hattached : (new.map fun x => { x with level }).foldl attach ⟨level, [], g.made⟩ =
      ⟨level, [] ++ new.map fun x => { x with level }, g.made⟩ := by
    apply foldl_attach
    simpa only [List.nil_append, hnumbers] using h
  rw [List.foldl_map] at hattached
  unfold replace
  dsimp only at hdetached ⊢
  rw [hdetached]
  exact hattached

/-- What a call can end with. -/
inductive Outcome (g : Logger) (c : Call) : Logger × Option Error → Prop
  | stream (hfile : c.logFile = none) :
    Outcome g c (⟨c.level, [⟨g.made, .errorStream, c.level⟩], g.made + 1⟩, none)
  | file {f : Text} {p : Path} (hfile : c.logFile = some f) (hopened : c.opened f = .ok p) :
    Outcome g c
      (⟨c.level, [⟨g.made, .errorStream, c.level⟩, ⟨g.made + 1, .file p, c.level⟩], g.made + 2⟩, none)
  | failure {f : Text} {e : Error} (hfile : c.logFile = some f) (hopened : c.opened f = .error e) :
    Outcome g c ({ g with made := g.made + 1 }, some e)

theorem outcome_setUp (g : Logger) (c : Call) : Outcome g c (g.setUp c) := by
  unfold setUp make
  cases hfile : c.logFile with
  | none =>
    dsimp only
    rw [replace_eq _ _ (by simp)]
    exact .stream hfile
  | some f =>
    cases hopened : c.opened f with
    | error e =>
      dsimp only
      rw [hopened]
      exact .failure hfile hopened
    | ok p =>
      dsimp only
      rw [hopened]
      dsimp only
      rw [replace_eq _ _ (by simp)]
      exact .file hfile hopened

/-- The output without telling its handlers apart. -/
def output (g : Logger) : Output := ⟨g.level, g.sinks.map fun x => (x.target, x.level)⟩

/-- The steps lead to the output that the session has, and to its failure. -/
theorem output_setUp (h : g.output = s.output) :
    (g.setUp c).1.output = (s.meet c).1.output ∧ (g.setUp c).2 = (s.meet c).2 := by
  have houtcome := outcome_setUp g c
  generalize g.setUp c = r at houtcome
  unfold Session.meet Session.configure Output.configure
  cases houtcome with
  | stream hfile =>
    have hnone : Output.fileOf c.environment c.file = none := hfile
    simp [hnone, output, Output.toward, Call.level]
  | file hfile hopened =>
    have hsome : Output.fileOf c.environment c.file = some _ := hfile
    rw [hsome]
    dsimp only
    rcases hdisk : Output.openFile c.disk c.now _ with ⟨d, r⟩
    obtain rfl : r = .ok _ := by simpa [Call.opened, hdisk] using hopened
    simp [output, Output.toward, Call.level]
  | failure hfile hopened =>
    have hsome : Output.fileOf c.environment c.file = some _ := hfile
    rw [hsome]
    dsimp only
    rcases hdisk : Output.openFile c.disk c.now _ with ⟨d, r⟩
    obtain rfl : r = .error _ := by simpa [Call.opened, hdisk] using hopened
    exact ⟨h, rfl⟩

theorem output_run (h : g.output = s.output) (cs : List Call) : (g.run cs).output = (s.after cs).output := by
  induction cs generalizing g s with
  | nil => exact h
  | cons c cs ih => exact ih (output_setUp h).1

/-- Every handler that is attached was made. -/
def Counted (g : Logger) : Prop := ∀ x ∈ g.sinks, x.number < g.made

theorem Counted.setUp (h : g.Counted) (c : Call) : (g.setUp c).1.Counted := by
  have houtcome := outcome_setUp g c
  generalize g.setUp c = r at houtcome
  cases houtcome with
  | stream => simp [Counted]
  | file => simp [Counted]
  | failure =>
    intro x hx
    exact Nat.lt_succ_of_lt (h x hx)

theorem Counted.run (h : g.Counted) (cs : List Call) : (g.run cs).Counted := by
  induction cs generalizing g with
  | nil => exact h
  | cons c cs ih => exact ih (h.setUp c)

/-- The logger of an output, in which the handlers are numbered in their order. -/
def ofOutput (o : Output) : Logger where
  level := o.level
  sinks := o.handlers.zipIdx.map fun h => ⟨h.2, h.1.1, h.1.2⟩
  made := o.handlers.length

@[simp] theorem output_ofOutput (o : Output) : (ofOutput o).output = o := by
  simp [output, ofOutput, Function.comp_def]

theorem counted_ofOutput (o : Output) : (ofOutput o).Counted := by
  intro x hx
  obtain ⟨h, hmem, rfl⟩ := List.mem_map.mp hx
  have hindex := List.snd_lt_of_mem_zipIdx hmem
  simpa [ofOutput] using hindex

/-- However many calls came before and whichever of them failed, a call that sets up the output replaces all handlers
with its own, one for the error stream and one for the log file in effect, or fails and leaves the logger as it was. -/
theorem setUp_replaces (s : Session) (cs : List Call) (c : Call) :
    let g := (ofOutput s.output).run cs
    let t := s.after cs
    (g.output = t.output ∧ (g.setUp c).1.output = (t.meet c).1.output ∧ (g.setUp c).2 = (t.meet c).2) ∧
      (∀ x ∈ g.sinks, x.number < g.made) ∧
      match (t.meet c).2 with
      | none => (g.setUp c).1.level = c.level ∧
          (g.setUp c).1.sinks = ⟨g.made, .errorStream, c.level⟩ ::
            (c.logFile.map fun f => ⟨g.made + 1, .file (Output.pathOf c.disk f), c.level⟩).toList
      | some _ => (g.setUp c).1.level = g.level ∧ (g.setUp c).1.sinks = g.sinks := by
  intro g t
  have hsame : g.output = t.output := output_run (output_ofOutput s.output) cs
  have hcall := output_setUp (c := c) hsame
  refine ⟨⟨hsame, hcall⟩, (counted_ofOutput s.output).run cs, ?_⟩
  have houtcome := outcome_setUp g c
  rw [← hcall.2]
  generalize g.setUp c = r at houtcome
  cases houtcome with
  | stream hfile => simp [hfile]
  | file hfile hopened => simp [hfile, Call.opened_path hopened]
  | failure => exact ⟨rfl, rfl⟩

/-- A file stands where the second log file should have its directory. -/
example :
    let g := (ofOutput {}).run
      [⟨{}, none, some "/a.txt".toList, {}, { micros := 0 }⟩,
        ⟨{ logFile := "/logs/a.txt".toList }, some true, none,
          { root := .directory [("logs".toList, .file .empty 0)] }, { micros := 0 }⟩]
    g.made = 3 ∧ g.level = .info ∧ g.sinks.map Sink.number = [0, 1] := by
  cbv

end Logger

end CodeManifest.Log
