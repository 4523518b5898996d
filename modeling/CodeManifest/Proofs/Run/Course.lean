import CodeManifest.Proofs.Run.Report

namespace CodeManifest.Run

open Files Log Project

variable {s : Session}

def roomFor (d : Disk) (p : Path) : Except Failure Unit × Disk :=
  if p.parent.hasNull then (.error (.defect .outOfRange), d)
  else match d.makeDirectories p.parent with
    | (d, none) => (.ok (), d)
    | (d, some e) => (.error (.fault (refusal "manifest" p e)), d)

def deposit (d : Disk) (now : Instant) (what : Text) (p : Path) (t : Text) : Except Failure Unit × Disk :=
  if p.hasNull then (.error (.defect .outOfRange), d)
  else match d.write p t now.micros with
    | .ok d => (.ok (), d)
    | .error e => (.error (.fault (refusal what p e)), d)

theorem leaves_makeRoom (s : Session) (p : Path) : Leaves (makeRoom p) s (roomFor s.disk p) := by
  unfold Leaves
  rw [exec_makeRoom]
  unfold roomFor
  by_cases hnull : p.parent.hasNull = true
  · rw [if_pos hnull, if_pos hnull]
    exact ⟨s, rfl, .refl s, rfl⟩
  · rw [if_neg hnull, if_neg hnull]
    rcases s.disk.makeDirectories p.parent with ⟨d, _ | e⟩
    · exact ⟨_, rfl, ⟨id, rfl, rfl⟩, rfl⟩
    · exact ⟨_, rfl, ⟨id, rfl, rfl⟩, rfl⟩

theorem leaves_write (s : Session) (what : Text) (p : Path) (t : Text) :
    Leaves (write what p t) s (deposit s.disk s.now what p t) := by
  unfold Leaves
  rw [exec_write]
  unfold deposit
  by_cases hnull : p.hasNull = true
  · rw [if_pos hnull, if_pos hnull]
    exact ⟨s, rfl, .refl s, rfl⟩
  · rw [if_neg hnull, if_neg hnull]
    cases s.disk.write p t s.now.micros with
    | ok d => exact ⟨_, rfl, ⟨id, rfl, rfl⟩, rfl⟩
    | error e => exact ⟨s, rfl, .refl s, rfl⟩

/-- Where the summary goes. -/
def summaryPath (p : Path) : Path := p.parent.child summaryName

/-- What writing a summary comes to. One without bytes leaves an empty file. -/
def summarize (d : Disk) (now : Instant) (p : Path) (m : Manifest) : Except Failure Unit × Disk :=
  if m.hasBytes then deposit d now "summary" p (m.summary m.generatedAt)
  else andThen (deposit d now "summary" p []) fun _ d => (.error .halves, d)

/-- What writing a manifest comes to. -/
def depositManifest (d : Disk) (now : Instant) (p : Path) (m : Manifest) : Except Failure Unit × Disk :=
  andThen (roomFor d p) fun _ d => deposit d now "manifest" p (m.toJson ++ ['\n'])

/-- The same with a summary beside it, if that is wanted. -/
def deliver (d : Disk) (now : Instant) (p : Path) (m : Manifest) (wanted : Bool) : Except Failure Unit × Disk :=
  andThen (depositManifest d now p m) fun _ d =>
    if wanted then summarize d now (summaryPath p) m else (.ok (), d)

theorem leaves_writeManifest (h : s.IsQuiet) (p : Path) (m : Manifest) :
    Leaves (writeManifest p m) s (depositManifest s.disk s.now p m) := by
  unfold writeManifest depositManifest
  refine (leaves_makeRoom s p).bind fun _ s₁ _ h₁ => ?_
  rw [← h₁.now]
  exact (leaves_write s₁ "manifest" p _).andReport (h₁.quiet h) rfl

theorem leaves_writeSummary (h : s.IsQuiet) (p : Path) (m : Manifest) :
    Leaves (writeSummary p m) s (summarize s.disk s.now p m) := by
  unfold writeSummary summarize
  by_cases hbytes : m.hasBytes = true
  · rw [if_pos hbytes, if_pos hbytes]
    exact (leaves_write s "summary" p _).andReport h rfl
  · rw [if_neg hbytes, if_neg hbytes]
    exact (leaves_write s "summary" p _).bind fun _ s₁ _ _ => .throw .halves s₁

/-- A part of a run that comes to this result wherever it begins, and leaves the disk alone. -/
def Idle {α : Type} (x : Run α) (r : Except Failure α) : Prop := ∀ s, s.IsQuiet → Leaves x s (r, s.disk)

namespace Idle

variable {α : Type} {x : Run α} {r : Except Failure α}

theorem pure (a : α) : Idle (Pure.pure a) (.ok a) := fun s _ => .pure a s

theorem step {y : Run Unit} (hy : Idle y (.ok ())) (hx : Idle x r) : Idle (y >>= fun _ => x) r := by
  intro s hs
  refine (hy s hs).step fun s' hstill hdisk => ?_
  rw [← hdisk]
  exact hx s' (hstill.quiet hs)

theorem say (t : Text) (hx : Idle x r) : Idle (Run.say t >>= fun _ => x) r :=
  step (fun _ hs => .report hs rfl) hx

theorem print (lines : List Text) (hx : Idle x r) : Idle (lines.forM Run.print >>= fun _ => x) r := by
  refine step ?_ hx
  induction lines with
  | nil => exact .pure ()
  | cons line lines ih => exact step (fun s _ => .print line s) ih

theorem printValue (label : Text) {v : Value} (hx : v.hasBytes = true → Idle x r)
    (hr : v.hasBytes = false → r = .error .halves) : Idle (Run.printValue label v >>= fun _ => x) r := by
  unfold Run.printValue
  cases hbytes : v.hasBytes with
  | true => exact step (fun s _ => .print _ s) (hx hbytes)
  | false =>
    rw [hr hbytes]
    exact fun s _ => .throw .halves s

end Idle

/-- What generating a manifest comes to. -/
def generated (d : Disk) (now : Instant) (root : Path) (c : Config) (output : Option Text)
    (summary : Option Bool) : Except Failure Nat × Disk :=
  andThen (survey d now root c, d) fun m d =>
    andThen (deliver d now (outputPath root c output) m (summary.getD c.summary)) fun _ d => (.ok 0, d)

theorem leaves_generate (h : s.IsQuiet) (root : Path) (c : Config) (output : Option Text)
    (summary : Option Bool) :
    Leaves (generate root c output summary) s (generated s.disk s.now root c output summary) := by
  unfold generate generated deliver
  refine (leaves_analyze h root c).bind fun m s₁ _ h₁ => ?_
  rw [andThen_assoc]
  have hquiet₁ := h₁.quiet h
  rw [← h₁.now]
  refine (leaves_writeManifest hquiet₁ _ m).bind fun _ s₂ _ h₂ => ?_
  have hquiet₂ := h₂.quiet hquiet₁
  rw [← h₂.now]
  have hclosing (tools resources : Text) : Idle _ (.ok 0) :=
    .say ("Extracted ".toList ++ tools ++ " tools and ".toList ++ resources ++ " resources".toList) <|
    .say rule <| .say "GENERATION SUMMARY" <| .say ("Project: ".toList ++ m.metadata.name.toText) <|
    .say ("Tools: ".toList ++ tools) <| .say ("Resources: ".toList ++ resources) <|
    .say ("Frameworks: ".toList ++ Package.listed m.metadata.frameworks "None detected") <|
    .say rule <| .pure 0
  dsimp only
  split
  · refine (leaves_writeSummary hquiet₂ _ m).bind fun _ s₃ _ h₃ => ?_
    exact hclosing _ _ s₃ (h₃.quiet hquiet₂)
  · exact hclosing _ _ s₂ hquiet₂

/-- What printing a manifest comes to: some of its values may have no bytes. -/
def printed (m : Manifest) : Except Failure Nat :=
  if m.hasBytes && (Manifest.describe m.metadata).hasBytes then .ok 0 else .error .halves

theorem leaves_info (h : s.IsQuiet) (root : Path) (c : Config) :
    Leaves (info root c) s (andThen (survey s.disk s.now root c, s.disk) fun m d => (printed m, d)) := by
  unfold info
  refine (leaves_analyze h root c).bind fun m s₁ _ h₁ => ?_
  refine Idle.print _ (.printValue _ (fun hname => .printValue _ (fun hversion => .printValue _
    (fun hdescription => .print _ ?_) ?_) ?_) ?_) s₁ (h₁.quiet h)
  · simp only [printed, Manifest.hasBytes, hname, hversion, hdescription]
    exact .pure 0
  · intro hdescription
    simp [printed, hdescription]
  · intro hversion
    simp [printed, Manifest.hasBytes, hversion]
  · intro hname
    simp [printed, Manifest.hasBytes, hname]

/-- Reports go to the error stream alone where the environment does not ask for more. -/
theorem leaves_configure (s : Session) (debug : Option Bool) :
    Leaves (configure {} debug) s (.ok (), s.disk) := by
  have hquiet (level : Level) : ({ s with output := .toward level none } : Session).IsQuiet := by
    intro h hh
    rw [List.mem_singleton.mp hh]
  exact ⟨_, rfl, ⟨fun _ => hquiet _, rfl, rfl⟩, rfl⟩

/-- What the command line says of debugging. -/
def debugOf (a : CommandLine.Arguments) : Option Bool := if a.debug then some true else none

/-- What a command comes to in a project. -/
def performed (d : Disk) (now : Instant) (a : CommandLine.Arguments) (root : Path) : Except Failure Nat × Disk :=
  if d.isDirectory root then
    andThen (loadConfig d root {} (debugOf a), d) fun c d =>
      match a.command with
      | some .info => andThen (survey d now root c, d) fun m d => (printed m, d)
      | _ => generated d now root c a.output a.summary
  else (.error (.fault ⟨.general, "Project root is not a directory: ".toList ++ root.render, []⟩), d)

theorem leaves_perform (h : s.IsQuiet) (a : CommandLine.Arguments) (root : Path) :
    Leaves (perform {} a root) s (performed s.disk s.now a root) := by
  unfold perform performed
  refine .get_bind ?_
  by_cases hroot : s.disk.isDirectory root = true
  · rw [if_pos hroot]
    simp only [hroot, Bool.not_true, Bool.false_eq_true, if_false]
    refine .get_bind ((Leaves.lift _ s).bind fun c s₁ _ h₁ => ?_)
    have hwork (s₂ : Session) (h₂ : s₂.IsQuiet) : Leaves
        (match a.command with
          | some .info => info root c
          | _ => generate root c a.output a.summary) s₂
        (match a.command with
          | some .info => andThen (survey s₂.disk s₂.now root c, s₂.disk) fun m d => (printed m, d)
          | _ => generated s₂.disk s₂.now root c a.output a.summary) := by
      split
      · exact leaves_info h₂ root c
      · exact leaves_generate h₂ root c a.output a.summary
    have hquiet₁ := h₁.quiet h
    rw [← h₁.now]
    split
    · refine (leaves_configure s₁ (some true)).step fun s₂ h₂ hd₂ => ?_
      rw [← hd₂, ← h₂.now]
      exact hwork s₂ (h₂.quiet hquiet₁)
    · exact hwork s₁ hquiet₁
  · rw [if_neg hroot]
    simp only [hroot]
    exact ⟨s, rfl, .refl s, rfl⟩

/-- What a run comes to, before it reports what went wrong. -/
def course (d : Disk) (now : Instant) (a : CommandLine.Arguments) : Except Failure Nat × Disk :=
  if (Path.ofText a.root).hasNull then (.error (.defect .outOfRange), d)
  else andThen (d.resolved (.ofText a.root), d) fun root d => performed d now a root

/-- How the run ends. -/
def ending : Except Failure Nat → Except Failure Nat
  | .ok n => .ok n
  | .error f => if f.isReported then .ok 1 else .error f

def complaint (f : Failure) : Record := ⟨"cli", .error, "Error generating MCP manifest: ".toList ++ f.text⟩

/-- The report with which the run ends, if there is one. -/
def complaintsOf : Except Failure Nat → List Record
  | .ok _ => []
  | .error f => if f.isReported then [complaint f] else []

theorem not_isReported_of_resolved {d : Disk} {p : Path} {f : Failure} (h : d.resolved p = .error f) :
    f.isReported = false := by
  unfold Disk.resolved at h
  split at h
  · cases h
  · cases h
    rfl

/-- The run tells of what went wrong if it is to be told. -/
theorem exec_handled {x : Run Nat} {r : Except Failure Nat × Disk} (hs : s.IsQuiet) (h : Leaves x s r) :
    ∃ s', exec (tryCatch x fun f =>
        if f.isReported then do
          report (complaint f)
          pure 1
        else throw f) s = (ending r.1, s') ∧ s'.disk = r.2 ∧ s'.complaints = s.complaints ++ complaintsOf r.1 := by
  obtain ⟨s', hx, hstill, hdisk⟩ := h
  obtain ⟨r, d⟩ := r
  rw [exec_tryCatch, hx]
  cases r with
  | ok n => exact ⟨s', rfl, hdisk, by simp [complaintsOf, hstill.complaints]⟩
  | error f =>
    dsimp only [ending, complaintsOf]
    split
    · refine ⟨_, rfl, (disk_report (hstill.quiet hs) _).trans hdisk, ?_⟩
      have hadmits : s'.output.level.admits .error = true := by
        cases s'.output.level <;> rfl
      rw [complaints_report, hstill.complaints]
      change _ ++ (if s'.output.level.admits .error && true then _ else _) = _
      rw [hadmits]
      rfl
    · exact ⟨s', rfl, hdisk, by simp [hstill.complaints]⟩

theorem exec_command (h : s.IsQuiet) (a : CommandLine.Arguments) :
    ∃ s', exec (command {} a) s = (ending (course s.disk s.now a).1, s') ∧
      s'.disk = (course s.disk s.now a).2 ∧
      s'.complaints = s.complaints ++ complaintsOf (course s.disk s.now a).1 := by
  obtain ⟨s₁, hconfigure, hstill, hdisk⟩ := leaves_configure s (if a.debug then some true else none)
  have hdisk : s₁.disk = s.disk := hdisk
  unfold command course
  rw [exec_bind_of_ok hconfigure, exec_bind, exec_reach, ← hdisk, ← hstill.now, ← hstill.complaints]
  by_cases hnull : (Path.ofText a.root).hasNull = true
  · rw [if_pos hnull, if_pos hnull]
    exact ⟨s₁, rfl, rfl, by simp [complaintsOf, Failure.isReported]⟩
  · rw [if_neg hnull, if_neg hnull]
    dsimp only
    rw [exec_bind_of_ok (exec_get s₁), exec_bind, exec_lift]
    cases hroot : s₁.disk.resolved (.ofText a.root) with
    | error f =>
      have hunreported := not_isReported_of_resolved hroot
      exact ⟨s₁, by simp [andThen, ending, hunreported], rfl, by simp [andThen, complaintsOf, hunreported]⟩
    | ok root =>
      have hquiet := hstill.quiet h
      exact exec_handled hquiet (leaves_perform hquiet a root)

/-- A run with a command line that can be read, on a disk that no report goes to. -/
theorem exec_main {words : List Text} {a : CommandLine.Arguments} (h : CommandLine.parse words = .ok a)
    (d : Disk) (now : Instant) :
    ∃ s', exec (main {} words) { disk := d, now } = (ending (course d now a).1, s') ∧
      s'.disk = (course d now a).2 ∧ s'.complaints = complaintsOf (course d now a).1 := by
  have hquiet : ({ disk := d, now } : Session).IsQuiet := by
    intro h hh
    cases hh
  unfold main
  rw [h]
  exact exec_command hquiet a

end CodeManifest.Run
