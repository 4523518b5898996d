import CodeManifest.Proofs.CommandLine
import CodeManifest.Proofs.Files.Way
import CodeManifest.Proofs.Project.Settings
import CodeManifest.Proofs.Run.Course

namespace CodeManifest.Run

open Files Log Project

variable {d : Disk} {p root : Path} {f : Failure}

theorem walk_of_load {extensions further directories excluded ignored : List Text}
    (hroot : d.resolved root = .ok root) (h : Ignore.load d root further = .ok ignored) :
    ∃ vs, walk d root extensions further directories excluded = .ok vs := by
  unfold walk
  rw [h, hroot]
  exact ⟨_, rfl⟩

theorem exists_readMetadata (hroot : d.resolved root = .ok root) : ∃ found, readMetadata d root = .ok found := by
  unfold readMetadata
  rw [hroot]
  simp only [bind, Except.bind]
  split
  · exact ⟨_, rfl⟩
  · split <;> exact ⟨_, rfl⟩

theorem exists_survey {ignored : List Text} (now : Instant) {c : Config} (hroot : d.resolved root = .ok root)
    (h : Ignore.load d root c.ignorePatterns = .ok ignored) : ∃ m, survey d now root c = .ok m := by
  obtain ⟨vs, hsources⟩ : ∃ vs, walk d root c.sourceExtensions c.ignorePatterns [] excludedSources = .ok vs :=
    walk_of_load hroot h
  obtain ⟨us, hsql⟩ : ∃ us, walk d root [".sql"] c.ignorePatterns excludedSqlDirectories [] = .ok us :=
    walk_of_load hroot h
  obtain ⟨found, hmetadata⟩ := exists_readMetadata hroot
  unfold survey findSources findSql
  rw [hsources, hsql, hmetadata]
  exact ⟨_, rfl⟩

theorem metadata_of_absent {now : Instant} {c : Config} {m : Manifest} (hroot : d.resolved root = .ok root)
    (hpackage : d.isThere (root.child packageName) = false) (h : survey d now root c = .ok m) :
    m.metadata = { name := .text root.name } := by
  obtain ⟨records, hmetadata⟩ := exists_readMetadata_of_survey h
  unfold readMetadata at hmetadata
  rw [hroot] at hmetadata
  simp only [bind, Except.bind, hpackage] at hmetadata
  exact (Prod.mk.inj (Except.ok.inj hmetadata)).1.symm

theorem metadata_of_package {now : Instant} {c : Config} {m : Manifest} {v : Value} (hroot : d.resolved root = .ok root)
    (hpackage : Package.read d (root.child packageName) = .ok v) (h : survey d now root c = .ok m) :
    m.metadata = Metadata.ofPackage root.name v := by
  have hthere : d.isThere (root.child packageName) = true := by
    unfold Package.read at hpackage
    cases hread : d.readText (root.child packageName) with
    | error f =>
      rw [hread] at hpackage
      cases hpackage
    | ok t => exact isThere_of_readText hread
  obtain ⟨records, hmetadata⟩ := exists_readMetadata_of_survey h
  unfold readMetadata at hmetadata
  rw [hroot] at hmetadata
  simp only [bind, Except.bind, hthere, hpackage] at hmetadata
  exact (Prod.mk.inj (Except.ok.inj hmetadata)).1.symm

/-- A package file whose bytes are those of a text is read as that text. -/
theorem read_package {t : Text} {changed : Int} {es : List (Value × Value)}
    (h : d.entry p = .ok (.file (Text.toUtf8 t) changed)) (hbytes : Text.ofUtf8? (Text.toUtf8 t).toList = some t)
    (hobject : Json.read? (Text.unifyLineEnds t) = some (.map es)) : Package.read d p = .ok (.map es) := by
  have htext : d.readText p = .ok (Text.unifyLineEnds t) := by
    rw [Disk.readText, Disk.read_eq_ok.mpr h]
    simp only [hbytes]
  rw [Package.read, htext]
  simp only [hobject]

theorem exists_survey_of_absent (now : Instant) (c : Config) (hroot : d.resolved root = .ok root)
    (hpatterns : d.isThere (root.child Ignore.fileName) = false) : ∃ m, survey d now root c = .ok m := by
  have hload : ∃ ignored, Ignore.load d root c.ignorePatterns = .ok ignored := by
    unfold Ignore.load
    dsimp only
    rw [hpatterns]
    exact ⟨_, rfl⟩
  obtain ⟨ignored, hload⟩ := hload
  exact exists_survey now hroot hload

theorem survey_of_error (now : Instant) {c : Config} (h : Ignore.load d root c.ignorePatterns = .error f) :
    survey d now root c = .error f := by
  unfold survey findSources walk
  rw [h]
  rfl

theorem hasNull_child (p : Path) (name : Text) : (p.child name).hasNull = (p.hasNull || name.contains '\x00') := by
  simp [Path.hasNull, Path.child]

theorem not_isReported_roomFor :
    ((roomFor d p).1 = .error f ∧ f.isReported = false) ↔ f = .defect .outOfRange ∧ p.parent.hasNull = true := by
  unfold roomFor
  by_cases hnull : p.parent.hasNull = true
  · rw [if_pos hnull]
    constructor
    · rintro ⟨h, -⟩
      cases h
      exact ⟨rfl, hnull⟩
    · rintro ⟨rfl, -⟩
      exact ⟨rfl, rfl⟩
  · rw [if_neg hnull]
    constructor
    · rintro ⟨h, hf⟩
      split at h <;> cases h
      cases hf
    · rintro ⟨-, h⟩
      exact absurd h hnull

theorem not_isReported_deposit {now : Instant} {what t : Text} :
    ((deposit d now what p t).1 = .error f ∧ f.isReported = false) ↔
      f = .defect .outOfRange ∧ p.hasNull = true := by
  unfold deposit
  by_cases hnull : p.hasNull = true
  · rw [if_pos hnull]
    constructor
    · rintro ⟨h, -⟩
      cases h
      exact ⟨rfl, hnull⟩
    · rintro ⟨rfl, -⟩
      exact ⟨rfl, rfl⟩
  · rw [if_neg hnull]
    constructor
    · rintro ⟨h, hf⟩
      split at h <;> cases h
      cases hf
    · rintro ⟨-, h⟩
      exact absurd h hnull

theorem hasNull_summaryPath (p : Path) : (summaryPath p).hasNull = p.parent.hasNull := by
  have hname : summaryName.contains '\x00' = false := by decide
  rw [summaryPath, hasNull_child, hname, Bool.or_false]

/-- Where two steps stop, one of them does. -/
theorem error_andThen {α β : Type} {r : Except Failure α × Disk}
    {g : α → Disk → Except Failure β × Disk} :
    (andThen r g).1 = .error f ↔ r.1 = .error f ∨ ∃ a, r.1 = .ok a ∧ (g a r.2).1 = .error f := by
  obtain ⟨_ | a, d⟩ := r
  · simp [andThen]
  · simp [andThen]

/-- A null character stands in the way to the manifest or in its name, and the writing comes to it. -/
def MeetsNull (d : Disk) (p : Path) : Prop :=
  p.parent.hasNull = true ∨ p.hasNull = true ∧ (d.makeDirectories p.parent).2 = none

theorem not_isReported_depositManifest {now : Instant} {m : Manifest} :
    ((depositManifest d now p m).1 = .error f ∧ f.isReported = false) ↔
      f = .defect .outOfRange ∧ MeetsNull d p := by
  have hroom : (roomFor d p).1 = .ok () ↔ p.parent.hasNull = false ∧ (d.makeDirectories p.parent).2 = none := by
    unfold roomFor
    cases p.parent.hasNull <;> rcases d.makeDirectories p.parent with ⟨d', _ | e⟩ <;> simp
  unfold depositManifest
  rw [error_andThen]
  constructor
  · rintro ⟨h | ⟨_, hok, h⟩, hf⟩
    · obtain ⟨rfl, hnull⟩ := not_isReported_roomFor.mp ⟨h, hf⟩
      exact ⟨rfl, Or.inl hnull⟩
    · obtain ⟨rfl, hnull⟩ := not_isReported_deposit.mp ⟨h, hf⟩
      exact ⟨rfl, Or.inr ⟨hnull, (hroom.mp hok).2⟩⟩
  · rintro ⟨rfl, hnull⟩
    refine ⟨?_, rfl⟩
    cases habove : p.parent.hasNull with
    | true => exact Or.inl (not_isReported_roomFor.mpr ⟨rfl, habove⟩).1
    | false =>
      obtain ⟨hnull, hmade⟩ := hnull.resolve_left (by simp [habove])
      exact Or.inr ⟨(), hroom.mpr ⟨habove, hmade⟩, (not_isReported_deposit.mpr ⟨rfl, hnull⟩).1⟩

theorem not_isReported_summarize {now : Instant} {m : Manifest} :
    ((summarize d now p m).1 = .error f ∧ f.isReported = false) ↔
      f = .defect .outOfRange ∧ p.hasNull = true ∨
        f = .halves ∧ m.hasBytes = false ∧ (deposit d now "summary" p []).1 = .ok () := by
  unfold summarize
  cases hbytes : m.hasBytes with
  | true =>
    rw [if_pos rfl, not_isReported_deposit]
    simp
  | false =>
    rw [if_neg Bool.false_ne_true, error_andThen]
    constructor
    · rintro ⟨h | ⟨_, hok, h⟩, hf⟩
      · exact Or.inl (not_isReported_deposit.mp ⟨h, hf⟩)
      · cases h
        exact Or.inr ⟨rfl, rfl, hok⟩
    · rintro (h | ⟨rfl, -, hok⟩)
      · have hstop : (deposit d now "summary" p []).1 = .error f ∧ f.isReported = false := not_isReported_deposit.mpr h
        obtain ⟨hdeposit, hf⟩ := hstop
        exact ⟨Or.inl hdeposit, hf⟩
      · exact ⟨Or.inr ⟨(), hok, rfl⟩, rfl⟩

/-- A summary is wanted that has no bytes, and the writing comes to it. -/
structure MeetsHalves (d : Disk) (now : Instant) (p : Path) (m : Manifest) (wanted : Bool) : Prop where
  wanted : wanted = true
  halves : m.hasBytes = false
  manifest : (depositManifest d now p m).1 = .ok ()
  file : (deposit (depositManifest d now p m).2 now "summary" (summaryPath p) []).1 = .ok ()

/-- Nothing stops the writing unreported but a null character in a path, and halves in the summary. -/
theorem not_isReported_deliver {now : Instant} {m : Manifest} {wanted : Bool} :
    ((deliver d now p m wanted).1 = .error f ∧ f.isReported = false) ↔
      f = .defect .outOfRange ∧ MeetsNull d p ∨ f = .halves ∧ MeetsHalves d now p m wanted := by
  unfold deliver
  rw [error_andThen]
  constructor
  · rintro ⟨h | ⟨_, hok, h⟩, hf⟩
    · exact Or.inl (not_isReported_depositManifest.mp ⟨h, hf⟩)
    · split at h
      · rename_i hwanted
        rcases not_isReported_summarize.mp ⟨h, hf⟩ with ⟨rfl, hnull⟩ | ⟨rfl, hbytes, hfile⟩
        · rw [hasNull_summaryPath] at hnull
          exact Or.inl ⟨rfl, Or.inl hnull⟩
        · exact Or.inr ⟨rfl, hwanted, hbytes, hok, hfile⟩
      · cases h
  · rintro (h | ⟨rfl, h⟩)
    · have hstop : (depositManifest d now p m).1 = .error f ∧ f.isReported = false :=
        not_isReported_depositManifest.mpr h
      obtain ⟨hmanifest, hf⟩ := hstop
      exact ⟨Or.inl hmanifest, hf⟩
    · obtain ⟨hsummarize, hf⟩ := not_isReported_summarize.mpr (Or.inr ⟨rfl, h.halves, h.file⟩)
      refine ⟨Or.inr ⟨(), h.manifest, ?_⟩, hf⟩
      rw [if_pos h.wanted]
      exact hsummarize

variable {a : CommandLine.Arguments} {now : Instant}

/-- The command line names a directory, which stands at this path. -/
structure Enters (d : Disk) (a : CommandLine.Arguments) (root : Path) : Prop where
  named : (Path.ofText a.root).hasNull = false
  resolved : d.resolved (.ofText a.root) = .ok root
  directory : d.isDirectory root = true

/-- A value of the manifest that is to be printed has no bytes. -/
def Mute (m : Manifest) : Prop := (m.hasBytes && (Manifest.describe m.metadata).hasBytes) = false

/-- Why a run can stop at a failure that it does not report. -/
inductive Crash (d : Disk) (now : Instant) (a : CommandLine.Arguments) : Failure → Prop
  | nullRoot (hnull : (Path.ofText a.root).hasNull = true) : Crash d now a (.defect .outOfRange)
  /-- links lead from the root around in a circle -/
  | circle {f : Failure} (hnull : (Path.ofText a.root).hasNull = false)
      (hroot : d.resolved (.ofText a.root) = .error f) : Crash d now a f
  | settingsBytes {root : Path} {content : ByteArray} {changed : Int} (henters : Enters d a root)
      (hread : d.read (root.child settingsName) = .ok (content, changed))
      (hutf8 : Text.ofUtf8? content.toList = none) : Crash d now a .encoding
  /-- the text of a setting has the form of a number, a date and so on, and is none -/
  | setting {root : Path} {t : Text} {e : Yaml.Defect} (henters : Enters d a root)
      (hread : d.readText (root.child settingsName) = .ok t) (hyaml : Yaml.read t = .error e)
      (hdefect : e ≠ .malformed) : Crash d now a (.defect e)
  /-- the output is to be a value with a number in it that is too long to be written -/
  | longOutput {root : Path} {v : Value} (henters : Enters d a root) (hsettings : readSettings d root = .ok v)
      (hlong : Config.Overlong v) : Crash d now a (.defect .outOfRange)
  | ignoreBytes {root : Path} {c : Config} {content : ByteArray} {changed : Int} (henters : Enters d a root)
      (hconfig : loadConfig d root {} (debugOf a) = .ok c)
      (hread : d.read (root.child Ignore.fileName) = .ok (content, changed))
      (hutf8 : Text.ofUtf8? content.toList = none) : Crash d now a .encoding
  | nullOutput {root : Path} {c : Config} {m : Manifest} (henters : Enters d a root)
      (hconfig : loadConfig d root {} (debugOf a) = .ok c) (hsurvey : survey d now root c = .ok m)
      (hcommand : a.command ≠ some .info) (hnull : MeetsNull d (outputPath root c a.output)) :
      Crash d now a (.defect .outOfRange)
  /-- the name or the version of the project has halves in it, which the package file can write -/
  | halvedSummary {root : Path} {c : Config} {m : Manifest} (henters : Enters d a root)
      (hconfig : loadConfig d root {} (debugOf a) = .ok c) (hsurvey : survey d now root c = .ok m)
      (hcommand : a.command ≠ some .info)
      (hhalves : MeetsHalves d now (outputPath root c a.output) m (a.summary.getD c.summary)) :
      Crash d now a .halves
  | halvedInfo {root : Path} {c : Config} {m : Manifest} (henters : Enters d a root)
      (hconfig : loadConfig d root {} (debugOf a) = .ok c) (hsurvey : survey d now root c = .ok m)
      (hcommand : a.command = some .info) (hhalves : Mute m) : Crash d now a .halves

theorem ok_andThen {α β : Type} {r : Except Failure α × Disk} {g : α → Disk → Except Failure β × Disk} {b : β} :
    (andThen r g).1 = .ok b ↔ ∃ a, r.1 = .ok a ∧ (g a r.2).1 = .ok b := by
  obtain ⟨_ | a, d⟩ := r
  · simp [andThen]
  · simp [andThen]

theorem not_isReported_survey {c : Config} (hroot : d.resolved root = .ok root) :
    (survey d now root c = .error f ∧ f.isReported = false) ↔
      (d.readText (root.child Ignore.fileName) = .error f ∧ f.isReported = false) := by
  rw [← not_isReported_load]
  cases hload : Ignore.load d root c.ignorePatterns with
  | error g =>
    rw [survey_of_error now hload]
    constructor
    · rintro ⟨h, hf⟩
      cases h
      exact ⟨rfl, hf⟩
    · rintro ⟨h, hf⟩
      cases h
      exact ⟨rfl, hf⟩
  | ok ignored =>
    obtain ⟨m, hm⟩ := exists_survey now hroot hload
    rw [hm]
    constructor
    · rintro ⟨h, -⟩
      cases h
    · rintro ⟨h, -⟩
      cases h

theorem not_isReported_generated {c : Config} {output : Option Text} {summary : Option Bool}
    (hroot : d.resolved root = .ok root) :
    ((generated d now root c output summary).1 = .error f ∧ f.isReported = false) ↔
      (d.readText (root.child Ignore.fileName) = .error f ∧ f.isReported = false) ∨
        ∃ m, survey d now root c = .ok m ∧
          (f = .defect .outOfRange ∧ MeetsNull d (outputPath root c output) ∨
            f = .halves ∧ MeetsHalves d now (outputPath root c output) m (summary.getD c.summary)) := by
  unfold generated
  rw [error_andThen]
  constructor
  · rintro ⟨h | ⟨m, hsurvey, h⟩, hf⟩
    · exact Or.inl ((not_isReported_survey hroot).mp ⟨h, hf⟩)
    · rcases error_andThen.mp h with h | ⟨_, -, h⟩
      · exact Or.inr ⟨m, hsurvey, not_isReported_deliver.mp ⟨h, hf⟩⟩
      · cases h
  · rintro (h | ⟨m, hsurvey, h⟩)
    · obtain ⟨hsurvey, hf⟩ := (not_isReported_survey hroot).mpr h
      exact ⟨Or.inl hsurvey, hf⟩
    · obtain ⟨hdeliver, hf⟩ := not_isReported_deliver.mpr h
      exact ⟨Or.inr ⟨m, hsurvey, error_andThen.mpr (Or.inl hdeliver)⟩, hf⟩

theorem printed_eq_error {m : Manifest} : printed m = .error f ↔ f = .halves ∧ Mute m := by
  unfold printed Mute
  cases m.hasBytes && (Manifest.describe m.metadata).hasBytes with
  | true => simp
  | false => simp [eq_comm]

theorem course_of_enters (h : Enters d a root) :
    course d now a = andThen (loadConfig d root {} (debugOf a), d) fun c d =>
      match a.command with
      | some .info => andThen (survey d now root c, d) fun m d => (printed m, d)
      | _ => generated d now root c a.output a.summary := by
  unfold course performed
  rw [h.named, if_neg Bool.false_ne_true, h.resolved]
  change (if d.isDirectory root then _ else _) = _
  exact if_pos h.directory

/-- A run that enters the project stops for one of the reasons. -/
theorem crash_of_enters (henters : Enters d a root) (h : (course d now a).1 = .error f)
    (hf : f.isReported = false) : Crash d now a f := by
  have hroot := Disk.resolved_resolved henters.resolved
  rw [course_of_enters henters] at h
  rcases error_andThen.mp h with hconfig | ⟨c, hconfig, h⟩
  · rcases not_isReported_loadConfig.mp ⟨hconfig, hf⟩ with hsettings | ⟨v, hsettings, hlong, rfl⟩
    · rcases not_isReported_readSettings.mp hsettings with hread | hread
      · obtain ⟨rfl, content, changed, hread, hutf8⟩ := not_isReported_readText.mp hread
        exact .settingsBytes henters hread hutf8
      · obtain ⟨t, e, hread, hyaml, hdefect, rfl⟩ := hread
        exact .setting henters hread hyaml hdefect
    · exact .longOutput henters hsettings hlong
  · have hignore (h : d.readText (root.child Ignore.fileName) = .error f ∧ f.isReported = false) :
        Crash d now a f := by
      obtain ⟨rfl, content, changed, hread, hutf8⟩ := not_isReported_readText.mp h
      exact .ignoreBytes henters hconfig hread hutf8
    dsimp only at h
    split at h
    · rename_i hcommand
      rcases error_andThen.mp h with h | ⟨m, hsurvey, h⟩
      · exact hignore ((not_isReported_survey hroot).mp ⟨h, hf⟩)
      · obtain ⟨rfl, hmute⟩ := printed_eq_error.mp h
        exact .halvedInfo henters hconfig hsurvey hcommand hmute
    · rename_i hcommand
      rcases (not_isReported_generated hroot).mp ⟨h, hf⟩ with h | ⟨m, hsurvey, ⟨rfl, hnull⟩ | ⟨rfl, hhalves⟩⟩
      · exact hignore h
      · exact .nullOutput henters hconfig hsurvey hcommand hnull
      · exact .halvedSummary henters hconfig hsurvey hcommand hhalves

/-- A run stops where the configuration cannot be had. -/
theorem course_of_config_error (henters : Enters d a root) (h : loadConfig d root {} (debugOf a) = .error f) :
    (course d now a).1 = .error f := by
  rw [course_of_enters henters]
  exact error_andThen.mpr (Or.inl h)

/-- What stops the configuration unreported stops the run. -/
theorem not_isReported_of_loadConfig (henters : Enters d a root)
    (h : loadConfig d root {} (debugOf a) = .error f ∧ f.isReported = false) :
    (course d now a).1 = .error f ∧ f.isReported = false :=
  ⟨course_of_config_error henters h.1, h.2⟩

/-- What stops the analysis unreported stops the run, whatever it is for. -/
theorem not_isReported_of_ignored {c : Config} (henters : Enters d a root)
    (hconfig : loadConfig d root {} (debugOf a) = .ok c)
    (h : d.readText (root.child Ignore.fileName) = .error f ∧ f.isReported = false) :
    (course d now a).1 = .error f ∧ f.isReported = false := by
  have hroot := Disk.resolved_resolved henters.resolved
  rw [course_of_enters henters]
  refine ⟨error_andThen.mpr (Or.inr ⟨c, hconfig, ?_⟩), h.2⟩
  dsimp only
  split
  · exact error_andThen.mpr (Or.inl ((not_isReported_survey hroot).mpr h).1)
  · exact ((not_isReported_generated hroot).mpr (Or.inl h)).1

/-- What stops the writing unreported stops a run that is to write. -/
theorem not_isReported_of_writing {c : Config} {m : Manifest} (henters : Enters d a root)
    (hconfig : loadConfig d root {} (debugOf a) = .ok c) (hsurvey : survey d now root c = .ok m)
    (hcommand : a.command ≠ some .info)
    (hstop : f = .defect .outOfRange ∧ MeetsNull d (outputPath root c a.output) ∨ f = .halves ∧
      MeetsHalves d now (outputPath root c a.output) m (a.summary.getD c.summary)) :
    (course d now a).1 = .error f ∧ f.isReported = false := by
  have hroot := Disk.resolved_resolved henters.resolved
  obtain ⟨hgenerated, hf⟩ := (not_isReported_generated hroot).mpr (Or.inr ⟨m, hsurvey, hstop⟩)
  rw [course_of_enters henters]
  refine ⟨error_andThen.mpr (Or.inr ⟨c, hconfig, ?_⟩), hf⟩
  dsimp only
  split
  · rename_i hinfo
    exact absurd hinfo hcommand
  · exact hgenerated

theorem crash_of_not_isReported (h : (course d now a).1 = .error f) (hf : f.isReported = false) :
    Crash d now a f := by
  cases hnamed : (Path.ofText a.root).hasNull with
  | true =>
    unfold course at h
    rw [if_pos hnamed] at h
    cases h
    exact .nullRoot hnamed
  | false =>
    cases hroot : d.resolved (.ofText a.root) with
    | error g =>
      unfold course at h
      rw [hnamed, if_neg Bool.false_ne_true, hroot] at h
      cases h
      exact .circle hnamed hroot
    | ok root =>
      cases hdirectory : d.isDirectory root with
      | true => exact crash_of_enters ⟨hnamed, hroot, hdirectory⟩ h hf
      | false =>
        unfold course performed at h
        rw [hnamed, if_neg Bool.false_ne_true, hroot] at h
        dsimp only [andThen] at h
        rw [hdirectory, if_neg Bool.false_ne_true] at h
        cases h
        cases hf

/-- A run stops for each of the reasons. -/
theorem Crash.not_isReported (h : Crash d now a f) : (course d now a).1 = .error f ∧ f.isReported = false := by
  cases h with
  | nullRoot hnull =>
    unfold course
    rw [if_pos hnull]
    exact ⟨rfl, rfl⟩
  | circle hnull hroot =>
    unfold course
    rw [hnull, if_neg Bool.false_ne_true, hroot]
    exact ⟨rfl, not_isReported_of_resolved hroot⟩
  | settingsBytes henters hread hutf8 =>
    have htext := not_isReported_readText.mpr ⟨rfl, _, _, hread, hutf8⟩
    have hsettings := not_isReported_readSettings.mpr (Or.inl htext)
    exact not_isReported_of_loadConfig henters (not_isReported_loadConfig.mpr (Or.inl hsettings))
  | setting henters hread hyaml hdefect =>
    have hsettings := not_isReported_readSettings.mpr (Or.inr ⟨_, _, hread, hyaml, hdefect, rfl⟩)
    exact not_isReported_of_loadConfig henters (not_isReported_loadConfig.mpr (Or.inl hsettings))
  | longOutput henters hsettings hlong =>
    exact not_isReported_of_loadConfig henters (not_isReported_loadConfig.mpr (Or.inr ⟨_, hsettings, hlong, rfl⟩))
  | ignoreBytes henters hconfig hread hutf8 =>
    exact not_isReported_of_ignored henters hconfig (not_isReported_readText.mpr ⟨rfl, _, _, hread, hutf8⟩)
  | nullOutput henters hconfig hsurvey hcommand hnull =>
    exact not_isReported_of_writing henters hconfig hsurvey hcommand (Or.inl ⟨rfl, hnull⟩)
  | halvedSummary henters hconfig hsurvey hcommand hhalves =>
    exact not_isReported_of_writing henters hconfig hsurvey hcommand (Or.inr ⟨rfl, hhalves⟩)
  | halvedInfo henters hconfig hsurvey hcommand hhalves =>
    rw [course_of_enters henters]
    refine ⟨error_andThen.mpr (Or.inr ⟨_, hconfig, ?_⟩), rfl⟩
    dsimp only
    rw [hcommand]
    exact error_andThen.mpr (Or.inr ⟨_, hsurvey, printed_eq_error.mpr ⟨rfl, hhalves⟩⟩)

theorem crash_iff : ((course d now a).1 = .error f ∧ f.isReported = false) ↔ Crash d now a f :=
  ⟨fun h => crash_of_not_isReported h.1 h.2, Crash.not_isReported⟩

theorem eq_zero_of_course {n : Nat} (h : (course d now a).1 = .ok n) : n = 0 := by
  unfold course at h
  split at h
  · cases h
  · obtain ⟨root, -, h⟩ := ok_andThen.mp h
    unfold performed at h
    split at h
    · obtain ⟨c, -, h⟩ := ok_andThen.mp h
      dsimp only at h
      split at h
      · obtain ⟨m, -, h⟩ := ok_andThen.mp h
        unfold printed at h
        split at h
        · cases h
          rfl
        · cases h
      · obtain ⟨m, -, h⟩ := ok_andThen.mp h
        obtain ⟨_, -, h⟩ := ok_andThen.mp h
        cases h
        rfl
    · cases h

/-- The configuration file of a project cannot be read, or it says something wrong. -/
inductive Misconfigured (d : Disk) (root : Path) : Prop
  | unreadable {e : Files.Error} (hthere : d.isThere (root.child settingsName) = true)
      (hread : d.read (root.child settingsName) = .error e)
  | malformed {t : Text} (hread : d.readText (root.child settingsName) = .ok t)
      (hyaml : Yaml.read t = .error .malformed)
  | noMapping {t : Text} {v : Value} (hread : d.readText (root.child settingsName) = .ok t)
      (hyaml : Yaml.read t = .ok v) (hnull : v ≠ .null) (hmap : ∀ es, v ≠ .map es)
  | invalid {t : Text} {es : List (Value × Value)} {g : Fault}
      (hread : d.readText (root.child settingsName) = .ok t) (hyaml : Yaml.read t = .ok (.map es))
      (hvalue : Config.ofValue (.map es) = .error (.fault g))

/-- A directory cannot be read. -/
theorem Misconfigured.of_isDirectory (h : d.isDirectory (root.child settingsName) = true) : Misconfigured d root := by
  obtain ⟨place, es, hfind⟩ := Disk.isDirectory_eq_true.mp h
  have hentry := Disk.entry_eq_ok.mpr ⟨place, hfind⟩
  have hthere : d.isThere (root.child settingsName) = true := by
    unfold Disk.isThere
    rw [hentry]
  have hread : d.read (root.child settingsName) = .error ⟨.isDirectory, (root.child settingsName).render⟩ := by
    unfold Disk.read
    rw [hentry]
  exact .unreadable hthere hread

theorem Misconfigured.exists_loadConfig (h : Misconfigured d root) (e : Environment) (debug : Option Bool) :
    ∃ f, loadConfig d root e debug = .error f ∧ f.isReported = true := by
  cases h with
  | @unreadable error hthere hread =>
    have htext : d.readText (root.child settingsName) = .error (.file error) := by
      unfold Disk.readText
      rw [hread]
    exact ⟨_, loadConfig_of_error (readSettings_of_error hthere htext), rfl⟩
  | malformed hread hyaml =>
    have hsettings := readSettings_of_text hread
    rw [hyaml] at hsettings
    exact ⟨_, loadConfig_of_error hsettings, rfl⟩
  | @noMapping t v hread hyaml hnull hmap =>
    have hsettings := readSettings_of_text hread
    rw [hyaml] at hsettings
    cases v with
    | null => exact absurd rfl hnull
    | map es => exact absurd rfl (hmap es)
    | _ => exact ⟨_, loadConfig_of_error hsettings, rfl⟩
  | @invalid _ _ fault hread hyaml hvalue =>
    have hsettings := readSettings_of_text hread
    rw [hyaml] at hsettings
    exact ⟨.fault fault, loadConfig_of_ofValue_error hsettings hvalue, rfl⟩

/-- With a command line that can be read, and an environment that asks for nothing, a run ends with 0, or with 1
and one report that it went wrong, or it stops for one of the reasons in `Crash`, and for each of them it does.
Where the configuration cannot be read, or says something wrong, it is 1. -/
theorem main_ends {words : List Text} (h : CommandLine.parse words = .ok a) (d : Disk) (now : Instant) :
    ∃ r s', exec (main {} words) { disk := d, now } = (r, s') ∧
      ((r = .ok 0 ∧ s'.complaints = []) ∨ (∃ f, r = .ok 1 ∧ s'.complaints = [complaint f]) ∨
        ∃ f, r = .error f ∧ Crash d now a f) ∧
      (∀ f, Crash d now a f → r = .error f) ∧
      ∀ root, Enters d a root → Misconfigured d root → r = .ok 1 ∧ ∃ f, s'.complaints = [complaint f] := by
  obtain ⟨s', hexec, -, hcomplaints⟩ := exec_main h d now
  refine ⟨_, s', hexec, ?_, ?_, ?_⟩
  · cases hcourse : (course d now a).1 with
    | ok n =>
      obtain rfl := eq_zero_of_course hcourse
      rw [hcourse] at hcomplaints
      exact Or.inl ⟨rfl, hcomplaints⟩
    | error f =>
      rw [hcourse] at hcomplaints
      cases hf : f.isReported with
      | true =>
        rw [complaintsOf, if_pos hf] at hcomplaints
        exact Or.inr (Or.inl ⟨f, by rw [ending, if_pos hf], hcomplaints⟩)
      | false =>
        refine Or.inr (Or.inr ⟨f, ?_, crash_iff.mp ⟨hcourse, hf⟩⟩)
        rw [ending, hf, if_neg Bool.false_ne_true]
  · intro f hcrash
    obtain ⟨hcourse, hf⟩ := crash_iff.mpr hcrash
    rw [hcourse, ending, hf, if_neg Bool.false_ne_true]
  · intro root henters hwrong
    obtain ⟨f, hconfig, hf⟩ := hwrong.exists_loadConfig {} (debugOf a)
    have hcourse : (course d now a).1 = .error f := course_of_config_error henters hconfig
    rw [hcourse, complaintsOf, if_pos hf] at hcomplaints
    exact ⟨by rw [hcourse, ending, if_pos hf], f, hcomplaints⟩

/-- A project whose configuration is a directory. -/
def blockedDisk : Disk := { root := .directory [(".mcpgen.yaml", .directory [])] }

theorem main_ends_blocked :
    ∃ s' : Session, exec (main {} []) { disk := blockedDisk, now := { micros := 0 } } = (.ok 1, s') ∧
      ∃ f, s'.complaints = [complaint f] := by
  have hparse : CommandLine.parse [] = .ok {} := CommandLine.parse_line []
  have henters : Enters blockedDisk {} ⟨['/'], []⟩ := ⟨by decide, by cbv, by cbv⟩
  have hwrong : Misconfigured blockedDisk ⟨['/'], []⟩ := .unreadable (by cbv) (by cbv)
  obtain ⟨r, s', hexec, -, -, hmisconfigured⟩ := main_ends hparse blockedDisk { micros := 0 }
  obtain ⟨rfl, f, hcomplaints⟩ := hmisconfigured _ henters hwrong
  exact ⟨s', hexec, f, hcomplaints⟩

/-- A project whose configuration is no text. -/
def garbledDisk : Disk := { root := .directory [(".mcpgen.yaml", .file ⟨#[0xff]⟩ 0)] }

/-- What should be reported is not, and the run does not end in good order. -/
theorem garbled_escapes :
    ∃ s' : Session, exec (main {} []) { disk := garbledDisk, now := { micros := 0 } } = (.error .encoding, s') ∧
      s'.complaints = [] := by
  have hparse : CommandLine.parse [] = .ok {} := CommandLine.parse_line []
  have henters : Enters garbledDisk {} ⟨['/'], []⟩ := ⟨by decide, by cbv, by cbv⟩
  have hread : garbledDisk.read (Path.child ⟨['/'], []⟩ settingsName) = .ok (⟨#[0xff]⟩, 0) := by cbv
  obtain ⟨hcourse, hf⟩ := crash_iff.mpr (Crash.settingsBytes henters hread (by cbv))
  obtain ⟨s', hexec, -, hcomplaints⟩ := exec_main hparse garbledDisk { micros := 0 }
  rw [hcourse] at hexec hcomplaints
  exact ⟨s', hexec, hcomplaints⟩

end CodeManifest.Run
