import CodeManifest.Project.Ignore
import CodeManifest.Project.Settings
import CodeManifest.Proofs.Project.Config

namespace CodeManifest.Project

open Files

variable {d : Disk} {p root : Path} {f : Failure}

theorem isThere_of_read {x : ByteArray × Int} (h : d.read p = .ok x) : d.isThere p = true := by
  unfold Disk.read at h
  unfold Disk.isThere
  cases he : d.entry p with
  | ok e => rfl
  | error o =>
    rw [he] at h
    cases h

/-- Bytes that are no text are the one thing that stops a reader and is not reported. -/
theorem not_isReported_readText :
    (d.readText p = .error f ∧ f.isReported = false) ↔
      f = .encoding ∧ ∃ content changed, d.read p = .ok (content, changed) ∧ Text.ofUtf8? content.toList = none := by
  unfold Disk.readText
  cases hread : d.read p with
  | error e =>
    constructor
    · rintro ⟨h, hf⟩
      cases h
      cases hf
    · rintro ⟨-, content, changed, h, -⟩
      cases h
  | ok x =>
    obtain ⟨content, changed⟩ := x
    dsimp only
    cases hutf8 : Text.ofUtf8? content.toList with
    | some t =>
      constructor
      · rintro ⟨h, -⟩
        cases h
      · rintro ⟨-, content', changed', h, hnone⟩
        cases h
        rw [hutf8] at hnone
        cases hnone
    | none =>
      constructor
      · rintro ⟨h, -⟩
        cases h
        exact ⟨rfl, content, changed, rfl, hutf8⟩
      · rintro ⟨rfl, -⟩
        exact ⟨rfl, rfl⟩

theorem isThere_of_readText {t : Text} (h : d.readText p = .ok t) : d.isThere p = true := by
  unfold Disk.readText at h
  cases hread : d.read p with
  | error e =>
    rw [hread] at h
    cases h
  | ok x => exact isThere_of_read hread

theorem readSettings_of_absent (h : d.isThere (root.child settingsName) = false) :
    readSettings d root = .ok (.map []) := by
  unfold readSettings
  dsimp only
  rw [h]
  rfl

theorem readSettings_of_error (hthere : d.isThere (root.child settingsName) = true)
    (h : d.readText (root.child settingsName) = .error f) : readSettings d root = .error f := by
  unfold readSettings
  dsimp only
  rw [hthere, h]
  rfl

theorem readSettings_of_text {t : Text} (h : d.readText (root.child settingsName) = .ok t) :
    readSettings d root = match Yaml.read t with
      | .ok .null => .ok (.map [])
      | .ok (.map es) => .ok (.map es)
      | .ok _ => .error (.fault
        (.configuration ((root.child settingsName).render ++ " must contain a mapping".toList) []))
      | .error .malformed => .error (.fault
        (.configuration ("Invalid YAML in ".toList ++ (root.child settingsName).render) []))
      | .error e => .error (.defect e) := by
  unfold readSettings
  dsimp only
  rw [isThere_of_readText h, h]
  rfl

/-- What text stops the reader: that of a value which is none. -/
theorem not_isReported_of_text {t : Text} (hread : d.readText (root.child settingsName) = .ok t) :
    (readSettings d root = .error f ∧ f.isReported = false) ↔
      ∃ e, Yaml.read t = .error e ∧ e ≠ .malformed ∧ f = .defect e := by
  rw [readSettings_of_text hread]
  cases Yaml.read t with
  | ok v =>
    constructor
    · rintro ⟨h, hf⟩
      cases v <;> cases h
      all_goals cases hf
    · rintro ⟨e, he, -⟩
      cases he
  | error e =>
    constructor
    · rintro ⟨h, hf⟩
      refine ⟨e, rfl, ?_⟩
      cases e with
      | malformed =>
        cases h
        cases hf
      | _ =>
        cases h
        exact ⟨by decide, rfl⟩
    · rintro ⟨e', he, hne, rfl⟩
      cases he
      cases e with
      | malformed => exact absurd rfl hne
      | _ => exact ⟨rfl, rfl⟩

/-- Without a text of the settings, what stops its reader stops theirs. -/
theorem not_isReported_of_unread {g : Failure} (hread : d.readText (root.child settingsName) = .error g) :
    (readSettings d root = .error f ∧ f.isReported = false) ↔ g = f ∧ f.isReported = false := by
  constructor
  · rintro ⟨h, hf⟩
    cases hthere : d.isThere (root.child settingsName) with
    | false =>
      rw [readSettings_of_absent hthere] at h
      cases h
    | true =>
      rw [readSettings_of_error hthere hread] at h
      exact ⟨Except.error.inj h, hf⟩
  · rintro ⟨rfl, hf⟩
    obtain ⟨-, content, changed, hbytes, -⟩ := not_isReported_readText.mp ⟨hread, hf⟩
    exact ⟨readSettings_of_error (isThere_of_read hbytes) hread, hf⟩

/-- What stops the reader of the settings: what stops that of their text, and the text of a value that is none. -/
theorem not_isReported_readSettings :
    (readSettings d root = .error f ∧ f.isReported = false) ↔
      (d.readText (root.child settingsName) = .error f ∧ f.isReported = false) ∨
        ∃ t e, d.readText (root.child settingsName) = .ok t ∧ Yaml.read t = .error e ∧ e ≠ .malformed ∧
          f = .defect e := by
  cases hread : d.readText (root.child settingsName) with
  | error g =>
    rw [not_isReported_of_unread hread]
    simp
  | ok t =>
    rw [not_isReported_of_text hread]
    simp

theorem loadConfig_of_error {e : Environment} {debug : Option Bool} (h : readSettings d root = .error f) :
    loadConfig d root e debug = .error f := by
  unfold loadConfig
  rw [h]
  rfl

theorem loadConfig_of_ofValue_error {e : Environment} {debug : Option Bool} {v : Value}
    (h : readSettings d root = .ok v) (hvalue : Config.ofValue v = .error f) : loadConfig d root e debug = .error f := by
  unfold loadConfig
  rw [h]
  simp only [bind, Except.bind, hvalue]

/-- The settings themselves may be wrong, which is reported unless it is an output that cannot be written. -/
theorem not_isReported_loadConfig {e : Environment} {debug : Option Bool} :
    (loadConfig d root e debug = .error f ∧ f.isReported = false) ↔
      (readSettings d root = .error f ∧ f.isReported = false) ∨
        ∃ v, readSettings d root = .ok v ∧ Config.Overlong v ∧ f = .defect .outOfRange := by
  cases hread : readSettings d root with
  | error g =>
    rw [loadConfig_of_error hread]
    constructor
    · rintro ⟨h, hf⟩
      cases h
      exact Or.inl ⟨rfl, hf⟩
    · rintro (⟨h, hf⟩ | ⟨v, h, -⟩)
      · cases h
        exact ⟨rfl, hf⟩
      · cases h
  | ok v =>
    constructor
    · rintro ⟨h, hf⟩
      rcases Config.ofValue_cases v with ⟨hlong, hvalue⟩ | ⟨-, -, g, -, hvalue⟩ | ⟨-, -, c, hvalue⟩
      · rw [loadConfig_of_ofValue_error hread hvalue] at h
        cases h
        exact Or.inr ⟨v, rfl, hlong, rfl⟩
      · rw [loadConfig_of_ofValue_error hread hvalue] at h
        cases h
        cases hf
      · unfold loadConfig at h
        rw [hread] at h
        simp only [bind, Except.bind, hvalue] at h
        cases h
    · rintro (⟨h, -⟩ | ⟨w, h, hlong, rfl⟩)
      · cases h
      · cases h
        exact ⟨loadConfig_of_ofValue_error hread (Config.ofValue_of_overlong hlong), rfl⟩

theorem sourceExtensions_of_loadConfig {e : Environment} {debug : Option Bool} {c : Config}
    (h : loadConfig d root e debug = .ok c) : ∀ x ∈ c.sourceExtensions, x ∈ Config.supportedExtensions := by
  obtain ⟨v, -, h⟩ := exists_of_bind_eq_ok h
  obtain ⟨c', hc, h⟩ := exists_of_bind_eq_ok h
  cases h
  have hread := Config.sourceExtensions_of_ofValue hc
  exact hread

theorem not_isReported_load {further : List Text} :
    (Ignore.load d root further = .error f ∧ f.isReported = false) ↔
      (d.readText (root.child Ignore.fileName) = .error f ∧ f.isReported = false) := by
  unfold Ignore.load
  dsimp only
  cases hread : d.readText (root.child Ignore.fileName) with
  | error g =>
    constructor
    · rintro ⟨h, hf⟩
      split at h <;> cases h
      exact ⟨rfl, hf⟩
    · rintro ⟨h, hf⟩
      cases h
      obtain ⟨-, content, changed, hbytes, -⟩ := not_isReported_readText.mp ⟨hread, hf⟩
      rw [isThere_of_read hbytes]
      exact ⟨rfl, hf⟩
  | ok t =>
    rw [isThere_of_readText hread]
    constructor
    · rintro ⟨h, -⟩
      cases h
    · rintro ⟨h, -⟩
      cases h

end CodeManifest.Project
