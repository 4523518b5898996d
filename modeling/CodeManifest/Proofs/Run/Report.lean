import CodeManifest.Proofs.Run.Exec
import CodeManifest.Proofs.Schema.Scan
import CodeManifest.Proofs.Tool.Offer

namespace CodeManifest

namespace Log

/-- Is this the report of a run that went wrong? -/
def Record.isComplaint (r : Record) : Bool := r.source = "cli".toList && r.level = .error

/-- No report among these is that of a run that went wrong. -/
def Clean (rs : List Record) : Prop := ∀ r ∈ rs, r.isComplaint = false

theorem Clean.append {rs qs : List Record} (h : Clean rs) (h' : Clean qs) : Clean (rs ++ qs) :=
  List.forall_mem_append.mpr ⟨h, h'⟩

theorem Clean.singleton {r : Record} (h : r.isComplaint = false) : Clean [r] := List.forall_mem_singleton.mpr h

/-- The reports that the run went wrong. -/
def Session.complaints (s : Session) : List Record := s.shown.filter Record.isComplaint

/-- No report goes into a file. -/
def Session.IsQuiet (s : Session) : Prop := ∀ h ∈ s.output.handlers, h.1 = .errorStream

/-- What stays as it was where a part of a run does not complain. -/
structure Still (s s' : Session) : Prop where
  quiet : s.IsQuiet → s'.IsQuiet
  now : s'.now = s.now
  complaints : s'.complaints = s.complaints

namespace Still

variable {s s' s'' : Session}

theorem refl (s : Session) : Still s s := ⟨id, rfl, rfl⟩

theorem trans (h : Still s s') (h' : Still s' s'') : Still s s'' :=
  ⟨h'.quiet ∘ h.quiet, h'.now.trans h.now, h'.complaints.trans h.complaints⟩

end Still

/-- A report to the error stream leaves the disk as it is. -/
theorem emit_of_isQuiet {s : Session} (h : s.IsQuiet) (d : Files.Disk) (r : Record) :
    s.output.emit s.now d r = d := by
  have hfold (hs : List (Handler × Level)) (hq : ∀ h ∈ hs, h.1 = .errorStream) (f : _ → _ → _)
      (hf : ∀ d level, f d (Handler.errorStream, level) = d) : hs.foldl f d = d := by
    induction hs with
    | nil => rfl
    | cons h hs ih =>
      obtain ⟨hh, hhs⟩ := List.forall_mem_cons.mp hq
      obtain ⟨handler, level⟩ := h
      obtain rfl : handler = .errorStream := hh
      rw [List.foldl_cons, hf]
      exact ih hhs
  unfold Output.emit
  split
  · exact hfold _ h _ fun _ _ => rfl
  · rfl

theorem complaints_report (s : Session) (r : Record) :
    (s.report r).complaints =
      s.complaints ++ if s.output.level.admits r.level && r.isComplaint then [r] else [] := by
  unfold Session.complaints Session.report
  dsimp only
  cases s.output.level.admits r.level <;> cases h : r.isComplaint <;> simp [h]

theorem still_report (s : Session) {r : Record} (hr : r.isComplaint = false) : Still s (s.report r) where
  quiet := id
  now := rfl
  complaints := by simp [complaints_report, hr]

theorem disk_report {s : Session} (h : s.IsQuiet) (r : Record) : (s.report r).disk = s.disk :=
  emit_of_isQuiet h s.disk r

theorem still_reportAll {rs : List Record} (s : Session) (hrs : Clean rs) : Still s (rs.foldl Session.report s) := by
  induction rs generalizing s with
  | nil => exact .refl s
  | cons r rs ih =>
    obtain ⟨hr, hrs⟩ := List.forall_mem_cons.mp hrs
    exact (still_report s hr).trans (ih _ hrs)

theorem disk_reportAll {s : Session} (h : s.IsQuiet) (rs : List Record) :
    (rs.foldl Session.report s).disk = s.disk := by
  induction rs generalizing s with
  | nil => rfl
  | cons r rs ih =>
    have hstep : (s.report r).IsQuiet := h
    rw [List.foldl_cons, ih hstep, disk_report h]

end Log

open Log

theorem Project.Found.clean_ofVisits (root : Path) (what : Text) (vs : List Visit) :
    Clean (ofVisits root what vs).records := by
  intro r hr
  simp only [ofVisits, inWalkOrder, List.mem_append, List.mem_map, List.mem_singleton] at hr
  rcases hr with ⟨ns, -, rfl⟩ | rfl <;> rfl

theorem Project.clean_findSources {d : Files.Disk} {root : Path} {extensions further : List Text} {f : Found}
    (h : findSources d root extensions further = .ok f) : Clean f.records := by
  obtain ⟨vs, -, h⟩ := exists_of_bind_eq_ok h
  cases h
  exact Found.clean_ofVisits root "source" vs

theorem Project.clean_findSql {d : Files.Disk} {root : Path} {further : List Text} {f : Found}
    (h : findSql d root further = .ok f) : Clean f.records := by
  obtain ⟨vs, -, h⟩ := exists_of_bind_eq_ok h
  cases h
  exact Found.clean_ofVisits root "SQL" vs

namespace Tool

theorem Scanner.clean_scanText (s : Scanner) (seen : List (Text × Text)) (path : Text)
    (l : Source.Language) (t : Text) : Clean (s.scanText seen path l t).records := by
  intro r hr
  rw [Scanner.scanText_eq] at hr
  rcases List.mem_append.mp hr with hr | hr
  · rw [Source.Parsers.eq_loading_of_mem hr]
    rfl
  · rcases Scanner.report_of_mem_symbolRecords hr with ⟨u, rfl⟩ | ⟨level, u, rfl⟩ <;> rfl

theorem Scanner.clean_scanFile (d : Files.Disk) (s : Scanner) (seen : List (Text × Text)) (file : Text) :
    Clean (s.scanFile d seen file).records := by
  unfold scanFile
  dsimp only
  split
  · simp [Clean]
  · split
    · exact .singleton rfl
    · exact (Clean.singleton rfl).append (clean_scanText s seen _ _ _)

/-- A scan that has not complained does not with another file. -/
theorem Progress.clean_step {d : Files.Disk} {p : Progress} (hp : Clean p.records) (file : Text) :
    Clean (p.step d file).records := by
  have hfile := Scanner.clean_scanFile d p.scanner (p.tools.map Descriptor.key) file
  unfold step
  dsimp only
  split
  · exact (hp.append hfile).append (.singleton rfl)
  · exact hp.append hfile

theorem Progress.clean_foldl {d : Files.Disk} {p : Progress} (hp : Clean p.records) (files : List Text) :
    Clean (files.foldl (step d) p).records :=
  List.foldlRecOn (motive := fun p => Clean p.records) files (step d) hp fun _ hp file _ => clean_step hp file

end Tool

namespace Schema

theorem Scanner.clean_scanFile (d : Files.Disk) (s : Scanner) (file : Text) :
    Clean (s.scanFile d file).records := by
  intro r hr
  simp [Record.isComplaint, level_of_mem_scanFile hr]

theorem Progress.clean_step {d : Files.Disk} {p : Progress} (hp : Clean p.records) (file : Text) :
    Clean (p.step d file).records := by
  have hfile := Scanner.clean_scanFile d p.scanner file
  unfold step
  dsimp only
  split
  · rename_i e he
    refine (hp.append hfile).append (.singleton ?_)
    simp [Record.isComplaint, Scanner.failure_level]
  · exact hp.append hfile

theorem Progress.clean_foldl {d : Files.Disk} {p : Progress} (hp : Clean p.records) (files : List Text) :
    Clean (files.foldl (step d) p).records :=
  List.foldlRecOn (motive := fun p => Clean p.records) files (step d) hp fun _ hp file _ => clean_step hp file

end Schema

namespace Pipeline

theorem clean_toolsOf {d : Files.Disk} {l : Lane Tool.Progress} (h : ∀ p, l.progress = .ok p → p.records = []) :
    Clean (toolsOf (l.drain (Tool.Progress.step d))).2 := by
  unfold Lane.drain
  cases hl : l.progress with
  | error e => exact .singleton rfl
  | ok p =>
    have hp : Clean p.records := by simp [Clean, h p hl]
    exact (Tool.Progress.clean_foldl hp l.files).append (.singleton rfl)

theorem clean_resourcesOf {d : Files.Disk} {l : Lane Schema.Progress}
    (h : ∀ p, l.progress = .ok p → p.records = []) :
    Clean (resourcesOf (l.drain (Schema.Progress.step d))).2 := by
  unfold Lane.drain
  cases hl : l.progress with
  | error e => exact .singleton rfl
  | ok p =>
    have hp : Clean p.records := by simp [Clean, h p hl]
    exact (Schema.Progress.clean_foldl hp l.files).append (.singleton rfl)

theorem clean_run (d : Files.Disk) (root : Path) (sources sqlFiles dialects : List Text) :
    Clean (run d root sources sqlFiles dialects []).records := by
  have htools : Clean (toolsOf ((start d root sources sqlFiles dialects).sources.drain
      (Tool.Progress.step d))).2 := by
    refine clean_toolsOf fun p hp => ?_
    obtain ⟨scanner, -, rfl⟩ := exists_of_map_eq_ok hp
    rfl
  have hresources : Clean (resourcesOf ((start d root sources sqlFiles dialects).schemas.drain
      (Schema.Progress.step d))).2 := by
    refine clean_resourcesOf fun p hp => ?_
    obtain ⟨scanner, -, rfl⟩ := exists_of_map_eq_ok hp
    rfl
  exact ((Clean.singleton rfl).append (htools.append hresources)).append (.singleton rfl)

end Pipeline

theorem Project.clean_readMetadata {d : Files.Disk} {root : Path} {found : Metadata × List Record}
    (h : readMetadata d root = .ok found) : Clean found.2 := by
  unfold readMetadata at h
  obtain ⟨place, -, h⟩ := exists_of_bind_eq_ok h
  dsimp only at h
  split at h
  · cases h
    exact .singleton rfl
  · split at h
    · cases h
      exact .singleton rfl
    · cases h
      exact (Clean.singleton rfl).append (.singleton rfl)

namespace Run

/-- What an analysis of the project on a disk comes to. -/
def survey (d : Files.Disk) (now : Instant) (root : Path) (c : Project.Config) : Except Failure Manifest := do
  let sources ← Project.findSources d root c.sourceExtensions c.ignorePatterns
  let sqlFiles ← Project.findSql d root c.ignorePatterns
  let absolute := fun (p : Path) => (root.join p).render
  let result := Pipeline.run d root (sources.files.map absolute) (sqlFiles.files.map absolute)
    c.dialectNames []
  let (metadata, _) ← Project.readMetadata d root
  return {
    metadata
    tools := result.tools
    resources := result.resources
    sourceFiles := Manifest.ofNat sources.files.length
    sqlFiles := Manifest.ofNat sqlFiles.files.length
    generatedAt := now }

open Project in
theorem survey_of_found {d : Files.Disk} {root : Path} {c : Config} {sources sqlFiles : Found} {metadata : Metadata}
    {records : List Record} (now : Instant)
    (hsources : findSources d root c.sourceExtensions c.ignorePatterns = .ok sources)
    (hsqlFiles : findSql d root c.ignorePatterns = .ok sqlFiles)
    (hmetadata : readMetadata d root = .ok (metadata, records)) :
    let absolute (p : Path) := (root.join p).render
    let result := Pipeline.run d root (sources.files.map absolute) (sqlFiles.files.map absolute)
      c.dialectNames []
    survey d now root c = .ok {
      metadata
      tools := result.tools
      resources := result.resources
      sourceFiles := Manifest.ofNat sources.files.length
      sqlFiles := Manifest.ofNat sqlFiles.files.length
      generatedAt := now } := by
  unfold survey
  rw [hsources, hsqlFiles, hmetadata]
  rfl

theorem exists_readMetadata_of_survey {d : Files.Disk} {now : Instant} {root : Path} {c : Project.Config} {m : Manifest}
    (h : survey d now root c = .ok m) : ∃ records, Project.readMetadata d root = .ok (m.metadata, records) := by
  unfold survey at h
  obtain ⟨_, -, h⟩ := exists_of_bind_eq_ok h
  obtain ⟨_, -, h⟩ := exists_of_bind_eq_ok h
  obtain ⟨⟨metadata, records⟩, hmetadata, h⟩ := exists_of_bind_eq_ok h
  cases h
  exact ⟨records, hmetadata⟩

/-- From a session on, a part of a run comes to this result and this disk, and does not complain. -/
def Leaves {α : Type} (x : Run α) (s : Session) (r : Except Failure α × Files.Disk) : Prop :=
  ∃ s', exec x s = (r.1, s') ∧ Still s s' ∧ s'.disk = r.2

/-- Goes on with a disk, if nothing went wrong on the way to it. -/
def andThen {α β : Type} (r : Except Failure α × Files.Disk)
    (g : α → Files.Disk → Except Failure β × Files.Disk) : Except Failure β × Files.Disk :=
  match r with
  | (.ok a, d) => g a d
  | (.error e, d) => (.error e, d)

theorem andThen_assoc {α β γ : Type} (r : Except Failure α × Files.Disk)
    (g : α → Files.Disk → Except Failure β × Files.Disk) (k : β → Files.Disk → Except Failure γ × Files.Disk) :
    andThen (andThen r g) k = andThen r fun a d => andThen (g a d) k := by
  obtain ⟨_ | a, d⟩ := r <;> rfl

namespace Leaves

variable {α β : Type} {x : Run α} {f : α → Run β} {s : Session}

theorem bind {r : Except Failure α × Files.Disk} {g : α → Files.Disk → Except Failure β × Files.Disk}
    (h : Leaves x s r) (hf : ∀ a s', r = (.ok a, s'.disk) → Still s s' → Leaves (f a) s' (g a s'.disk)) :
    Leaves (x >>= f) s (andThen r g) := by
  obtain ⟨s', hx, hstill, hdisk⟩ := h
  obtain ⟨r, d⟩ := r
  obtain rfl : s'.disk = d := hdisk
  cases r with
  | error e => exact ⟨s', exec_bind_of_error hx, hstill, rfl⟩
  | ok a =>
    obtain ⟨s'', hfa, hstill', hdisk'⟩ := hf a s' rfl hstill
    exact ⟨s'', (exec_bind_of_ok hx).trans hfa, hstill.trans hstill', hdisk'⟩

/-- A part that leaves the disk alone. -/
theorem bind_same {r : Except Failure α} {g : α → Except Failure β} (h : Leaves x s (r, s.disk))
    (hf : ∀ a s', r = .ok a → Still s s' → s'.disk = s.disk → Leaves (f a) s' (g a, s.disk)) :
    Leaves (x >>= f) s (r >>= g, s.disk) := by
  have hbind := h.bind (f := f) (g := fun a _ => (g a, s.disk)) fun a s' hr hstill => by
    obtain ⟨hr, hdisk⟩ := Prod.mk.inj hr
    exact hf a s' hr hstill hdisk.symm
  cases r <;> exact hbind

/-- A step that cannot go wrong. -/
theorem step {x : Run Unit} {q : Except Failure β × Files.Disk} {f : Unit → Run β}
    (h : Leaves x s (.ok (), s.disk)) (hf : ∀ s', Still s s' → s'.disk = s.disk → Leaves (f ()) s' q) :
    Leaves (x >>= f) s q :=
  h.bind (g := fun _ _ => q) fun _ s' hr hstill => hf s' hstill (Prod.mk.inj hr).2.symm

theorem get_bind {f : Session → Run α} {r : Except Failure α × Files.Disk} (h : Leaves (f s) s r) :
    Leaves (get >>= f) s r := h

theorem pure (a : α) (s : Session) : Leaves (Pure.pure a) s (.ok a, s.disk) := ⟨s, rfl, .refl s, rfl⟩

theorem lift (r : Except Failure α) (s : Session) : Leaves (Run.lift r) s (r, s.disk) := ⟨s, rfl, .refl s, rfl⟩

theorem throw (f : Failure) (s : Session) : Leaves (MonadExcept.throw f : Run α) s (.error f, s.disk) :=
  ⟨s, rfl, .refl s, rfl⟩

theorem report (h : s.IsQuiet) {r : Record} (hr : r.isComplaint = false) :
    Leaves (Run.report r) s (.ok (), s.disk) :=
  ⟨_, rfl, still_report s hr, disk_report h r⟩

/-- A report at the end changes nothing. -/
theorem andReport {x : Run Unit} {r : Except Failure Unit × Files.Disk} (h : Leaves x s r) (hs : s.IsQuiet)
    {q : Record} (hq : q.isComplaint = false) : Leaves (x >>= fun _ => Run.report q) s r := by
  have hbind := h.bind (f := fun _ => Run.report q) (g := fun _ d => (.ok (), d)) fun _ s' _ hstill =>
    report (hstill.quiet hs) hq
  obtain ⟨_ | a, d⟩ := r
  · exact hbind
  · exact hbind

theorem reportAll (h : s.IsQuiet) {rs : List Record} (hrs : Clean rs) :
    Leaves (Run.reportAll rs) s (.ok (), s.disk) :=
  ⟨_, exec_reportAll rs s, still_reportAll s hrs, disk_reportAll h rs⟩

theorem print (line : Text) (s : Session) : Leaves (Run.print line) s (.ok (), s.disk) :=
  ⟨_, rfl, ⟨id, rfl, rfl⟩, rfl⟩

end Leaves

/-- An analysis changes nothing but what was reported, and does not complain. -/
theorem leaves_analyze {s : Session} (hs : s.IsQuiet) (root : Path) (c : Project.Config) :
    Leaves (analyze root c) s (survey s.disk s.now root c, s.disk) := by
  unfold analyze survey
  refine (Leaves.report hs rfl).step fun s₁ h₁ hd₁ => .get_bind ?_
  rw [← hd₁]
  refine (Leaves.lift _ s₁).bind_same fun sources s₂ hsources h₂ hd₂ => ?_
  have hquiet₂ := (h₁.trans h₂).quiet hs
  rw [← hd₂]
  refine (Leaves.reportAll hquiet₂ (Project.clean_findSources hsources)).step fun s₃ h₃ hd₃ => ?_
  rw [← hd₃]
  refine (Leaves.lift _ s₃).bind_same fun sqlFiles s₄ hsql h₄ hd₄ => ?_
  have hquiet₄ := (h₃.trans h₄).quiet hquiet₂
  rw [← hd₄]
  refine (Leaves.reportAll hquiet₄ (Project.clean_findSql hsql)).step fun s₅ h₅ hd₅ => ?_
  have hquiet₅ := h₅.quiet hquiet₄
  rw [← hd₅]
  refine (Leaves.reportAll hquiet₅ (Pipeline.clean_run _ _ _ _ _)).step fun s₆ h₆ hd₆ => ?_
  rw [← hd₆]
  refine (Leaves.lift _ s₆).bind_same fun found s₇ hfound h₇ hd₇ => ?_
  have hquiet₇ := (h₆.trans h₇).quiet hquiet₅
  rw [← hd₇]
  refine (Leaves.reportAll hquiet₇ (Project.clean_readMetadata hfound)).step fun s₈ h₈ hd₈ => .get_bind ?_
  have hnow : s₈.now = s.now := by
    rw [h₈.now, h₇.now, h₆.now, h₅.now, h₄.now, h₃.now, h₂.now, h₁.now]
  rw [hnow, ← hd₈]
  exact .pure _ s₈

end Run

end CodeManifest
