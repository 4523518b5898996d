import CodeManifest.Proofs.Files.Written
import CodeManifest.Proofs.Run.Crash

namespace CodeManifest

theorem Path.child_parent {p : Path} (h : p.parts ≠ []) : p.parent.child p.name = p := by
  obtain ⟨root, parts⟩ := p
  simp [child, parent, name, List.getLast?_eq_some_getLast h, List.dropLast_append_getLast]

namespace Run

open Files Log Project

variable {d d₁ d' mid : Disk} {now : Instant} {a : CommandLine.Arguments} {p root : Path} {c : Config} {m : Manifest}
  {wanted : Bool}

theorem andThen_eq_ok {α β : Type} {r : Except Failure α × Disk} {g : α → Disk → Except Failure β × Disk} {b : β} :
    andThen r g = (.ok b, d') ↔ ∃ a d, r = (.ok a, d) ∧ g a d = (.ok b, d') := by
  obtain ⟨_ | a, d⟩ := r
  · simp [andThen]
  · simp [andThen]

theorem andThen_same_eq_ok {α β : Type} {r : Except Failure α} {g : α → Disk → Except Failure β × Disk} {b : β} :
    andThen (r, d) g = (.ok b, d') ↔ ∃ a, r = .ok a ∧ g a d = (.ok b, d') := by
  cases r <;> simp [andThen]

theorem roomFor_eq_ok {u : Unit} : roomFor d p = (.ok u, d') ↔
    p.parent.hasNull = false ∧ d.makeDirectories p.parent = (d', none) := by
  unfold roomFor
  cases p.parent.hasNull <;> rcases d.makeDirectories p.parent with ⟨mid, _ | e⟩ <;> simp

theorem deposit_eq_ok {what t : Text} {u : Unit} : deposit d now what p t = (.ok u, d') ↔
    p.hasNull = false ∧ d.write p t now.micros = .ok d' := by
  unfold deposit
  cases p.hasNull <;> cases d.write p t now.micros <;> simp

/-- The steps in which a manifest is written, and its summary if that is wanted. -/
structure Delivery (d : Disk) (now : Instant) (p : Path) (m : Manifest) (wanted : Bool) (mid d₁ d' : Disk) : Prop where
  named : p.parent.hasNull = false ∧ p.hasNull = false
  room : d.makeDirectories p.parent = (mid, none)
  manifest : mid.write p (m.toJson ++ ['\n']) now.micros = .ok d₁
  unwanted : wanted = false → d' = d₁
  summary : wanted = true →
    m.hasBytes = true ∧ d₁.write (summaryPath p) (m.summary m.generatedAt) now.micros = .ok d'

theorem summarize_eq_ok {q : Path} : summarize d now q m = (.ok (), d') ↔
    m.hasBytes = true ∧ q.hasNull = false ∧ d.write q (m.summary m.generatedAt) now.micros = .ok d' := by
  unfold summarize
  cases m.hasBytes with
  | true =>
    rw [if_pos rfl, deposit_eq_ok]
    simp
  | false =>
    rw [if_neg Bool.false_ne_true, andThen_eq_ok]
    simp

theorem deliver_eq_ok : deliver d now p m wanted = (.ok (), d') ↔ ∃ mid d₁, Delivery d now p m wanted mid d₁ d' := by
  unfold deliver depositManifest
  simp only [andThen_eq_ok, roomFor_eq_ok, deposit_eq_ok]
  constructor
  · rintro ⟨_, d₁, ⟨_, mid, ⟨habove, hroom⟩, hnamed, hmanifest⟩, h⟩
    refine ⟨mid, d₁, ⟨habove, hnamed⟩, hroom, hmanifest, ?_, ?_⟩
    · rintro rfl
      cases h
      rfl
    · rintro rfl
      obtain ⟨hbytes, -, hsummary⟩ := summarize_eq_ok.mp h
      exact ⟨hbytes, hsummary⟩
  · rintro ⟨mid, d₁, h⟩
    refine ⟨(), d₁, ⟨(), mid, ⟨h.named.1, h.room⟩, h.named.2, h.manifest⟩, ?_⟩
    cases wanted with
    | false => rw [h.unwanted rfl]; rfl
    | true =>
      obtain ⟨hbytes, hsummary⟩ := h.summary rfl
      exact summarize_eq_ok.mpr ⟨hbytes, (hasNull_summaryPath p).trans h.named.1, hsummary⟩

/-- A run that writes the manifest `m` of the project at `root` and leaves the second disk. -/
structure Generates (d : Disk) (now : Instant) (a : CommandLine.Arguments) (root : Path) (c : Config) (m : Manifest)
    (d' : Disk) : Prop where
  enters : Enters d a root
  config : loadConfig d root {} (debugOf a) = .ok c
  survey : survey d now root c = .ok m
  deliver : deliver d now (outputPath root c a.output) m (a.summary.getD c.summary) = (.ok (), d')

theorem course_eq_ok (hcommand : a.command ≠ some .info) : course d now a = (.ok 0, d') ↔
    ∃ root c m, Generates d now a root c m d' := by
  constructor
  · intro h
    unfold course at h
    split at h
    · cases h
    · rename_i hnull
      obtain ⟨root, hroot, h⟩ := andThen_same_eq_ok.mp h
      unfold performed at h
      split at h
      · rename_i hdirectory
        obtain ⟨c, hconfig, h⟩ := andThen_same_eq_ok.mp h
        split at h
        · rename_i hinfo
          exact absurd hinfo hcommand
        · obtain ⟨m, hsurvey, h⟩ := andThen_same_eq_ok.mp h
          obtain ⟨_, d₁, hdeliver, h⟩ := andThen_eq_ok.mp h
          cases h
          exact ⟨root, c, m, ⟨Bool.not_eq_true _ ▸ hnull, hroot, hdirectory⟩, hconfig, hsurvey, hdeliver⟩
      · cases h
  · rintro ⟨root, c, m, h⟩
    rw [course_of_enters h.enters]
    refine andThen_same_eq_ok.mpr ⟨c, h.config, ?_⟩
    split
    · rename_i hinfo
      exact absurd hinfo hcommand
    · exact andThen_same_eq_ok.mpr ⟨m, h.survey, andThen_eq_ok.mpr ⟨(), d', h.deliver, rfl⟩⟩

theorem eq_zero_of_ending {r : Except Failure Nat} (h : ending r = .ok 0) : r = .ok 0 := by
  cases r with
  | ok n => exact h
  | error f =>
    cases hf : f.isReported <;> simp [ending, hf] at h

/-- A run ends with 0 exactly where it writes a manifest. -/
theorem generates_of_exec {words : List Text} {s : Session} (hparse : CommandLine.parse words = .ok a)
    (hcommand : a.command ≠ some .info) (h : exec (main {} words) { disk := d, now } = (.ok 0, s)) :
    ∃ root c m, Generates d now a root c m s.disk := by
  obtain ⟨s', hexec, hdisk, -⟩ := exec_main hparse d now
  obtain ⟨hend, rfl⟩ := Prod.mk.inj (hexec.symm.trans h)
  exact (course_eq_ok hcommand).mp (Prod.ext (eq_zero_of_ending hend) hdisk.symm)

theorem Generates.exists_exec {words : List Text} (hparse : CommandLine.parse words = .ok a)
    (hcommand : a.command ≠ some .info) (h : Generates d now a root c m d') :
    ∃ s, exec (main {} words) { disk := d, now } = (.ok 0, s) ∧ s.disk = d' := by
  obtain ⟨s, hexec, hdisk, -⟩ := exec_main hparse d now
  rw [(course_eq_ok hcommand).mpr ⟨root, c, m, h⟩] at hexec hdisk
  exact ⟨s, hexec, hdisk⟩

/-- A place that a run writes, under the name of the manifest or that of a summary. -/
inductive Target (d : Disk) (p : Path) (wanted : Bool) : List Text → Prop
  | manifest {above : List Text} (hplace : d.resolve p = .ok ⟨['/'], above ++ [p.name]⟩) :
      Target d p wanted (above ++ [p.name])
  | summary {above : List Text} (hwanted : wanted = true)
      (hplace : d.resolve (summaryPath p) = .ok ⟨['/'], above ++ [summaryName]⟩) :
      Target d p wanted (above ++ [summaryName])

/-- The manifest lies at the path, and the summary beside it if that is wanted. A manifest that is called like a
summary makes way for it. -/
structure Delivered (d : Disk) (p : Path) (m : Manifest) (wanted : Bool) : Prop where
  manifest : wanted = false ∨ p.name ≠ summaryName →
    d.read p = .ok (Text.toUtf8 (m.toJson ++ ['\n']), m.generatedAt.micros)
  summary : wanted = true →
    d.read (summaryPath p) = .ok (Text.toUtf8 (m.summary m.generatedAt), m.generatedAt.micros)

namespace Delivery

variable (h : Delivery d now p m wanted mid d₁ d')

include h

theorem grows : Grows d.root mid.root ∧ mid.here = d.here := Disk.grows_of_makeDirectories h.room

theorem isDirectory_parent : mid.isDirectory p.parent = true := Disk.isDirectory_of_makeDirectories h.room

/-- The root is no file that could be written. -/
theorem child_parent : p.parent.child p.name = p := by
  refine Path.child_parent fun hparts => ?_
  have hparent : p.parent = p := by
    obtain ⟨root, parts⟩ := p
    obtain rfl : parts = [] := hparts
    rfl
  have hdirectory := h.isDirectory_parent
  rw [hparent] at hdirectory
  obtain ⟨ns, o, hfind, hfree, -⟩ := Disk.exists_of_write h.manifest
  unfold Disk.isDirectory Disk.entry at hdirectory
  rw [hfind] at hdirectory
  match o with
  | none => cases hdirectory
  | some (.file content changed) => cases hdirectory
  | some (.link t) => cases hdirectory
  | some (.directory es) => exact hfree es rfl

theorem manifest_place (hp : d.Unlinked p) : ∃ above, d.resolve p = .ok ⟨['/'], above ++ [p.name]⟩ ∧
    mid.Wrote (above ++ [p.name]) (Text.toUtf8 (m.toJson ++ ['\n'])) now.micros d₁ := by
  obtain ⟨hgrows, hhere⟩ := h.grows
  have hunlinked : mid.Unlinked (p.parent.child p.name) := by
    rw [h.child_parent]
    exact hp.of_keeps hhere hgrows.toKeeps
  have hwrite : mid.write (p.parent.child p.name) _ _ = .ok d₁ := h.child_parent.symm ▸ h.manifest
  obtain ⟨above, hplace⟩ := Disk.last_of_write hwrite hunlinked
  obtain ⟨ns, hplace', hwrote⟩ := Disk.wrote_of_write h.manifest
  rw [h.child_parent] at hplace
  cases hplace.symm.trans hplace'
  rw [Disk.resolve_of_keeps hhere hgrows.toKeeps] at hplace
  exact ⟨above, hplace, hwrote⟩

theorem summary_place (hs : d.Unlinked (summaryPath p)) (hwanted : wanted = true) :
    ∃ above, d.resolve (summaryPath p) = .ok ⟨['/'], above ++ [summaryName]⟩ ∧
      d₁.Wrote (above ++ [summaryName]) (Text.toUtf8 (m.summary m.generatedAt)) now.micros d' := by
  obtain ⟨hgrows, hhere⟩ := h.grows
  obtain ⟨ns, -, hmanifest⟩ := Disk.wrote_of_write h.manifest
  have hkeeps : Keeps d.root d₁.root := hgrows.toKeeps.trans hmanifest.keeps
  have hhere₁ : d₁.here = d.here := by
    rw [hmanifest.eq]
    exact hhere
  obtain ⟨-, hwrite⟩ := h.summary hwanted
  obtain ⟨above, hplace⟩ := Disk.last_of_write hwrite (hs.of_keeps hhere₁ hkeeps)
  obtain ⟨ns', hplace', hwrote⟩ := Disk.wrote_of_write hwrite
  have hplace : d₁.resolve (summaryPath p) = .ok ⟨['/'], above ++ [summaryName]⟩ := hplace
  cases hplace.symm.trans hplace'
  rw [Disk.resolve_of_keeps hhere₁ hkeeps] at hplace
  exact ⟨above, hplace, hwrote⟩

/-- What is written, no link leads to. -/
theorem exists_hidden (hp : d.Unlinked p) (hs : d.Unlinked (summaryPath p)) :
    ∃ places, Hidden d mid d' places ∧ ∀ r ∈ places, Target d p wanted r := by
  obtain ⟨hgrows, hhere⟩ := h.grows
  have htargets : ∃ places, mid.Writes places d' ∧ ∀ r ∈ places, Target d p wanted r := by
    obtain ⟨above, hplace, hmanifest⟩ := h.manifest_place hp
    cases hwanted : wanted with
    | false =>
      rw [h.unwanted hwanted]
      refine ⟨_, .of_wrote hmanifest, fun r hr => ?_⟩
      rw [List.mem_singleton.mp hr]
      exact .manifest hplace
    | true =>
      obtain ⟨above', hplace', hsummary⟩ := h.summary_place hs hwanted
      refine ⟨_, (Disk.Writes.of_wrote hmanifest).trans (.of_wrote hsummary), fun r hr => ?_⟩
      rcases List.mem_append.mp hr with hr | hr
      · rw [List.mem_singleton.mp hr]
        exact .manifest hplace
      · rw [List.mem_singleton.mp hr]
        exact .summary rfl hplace'
  obtain ⟨places, hwrites, htargets⟩ := htargets
  refine ⟨places, ⟨hhere, hgrows, hwrites, fun q t hq r hr => ?_⟩, htargets⟩
  cases htargets r hr with
  | manifest hplace => exact hplace ▸ hp q t hq
  | summary hwanted hplace => exact hplace ▸ hs q t hq

/-- What lies there in the end. -/
theorem delivered (hp : d.Unlinked p) (hs : d.Unlinked (summaryPath p)) (hnow : m.generatedAt = now) :
    Delivered d' p m wanted := by
  subst hnow
  have hmanifest := Disk.read_of_write h.manifest
  refine ⟨fun hkept => ?_, fun hwanted => Disk.read_of_write (h.summary hwanted).2⟩
  cases hwanted : wanted with
  | false =>
    rw [h.unwanted hwanted]
    exact hmanifest
  | true =>
    have hname : p.name ≠ summaryName := hkept.resolve_left (by simp [hwanted])
    obtain ⟨hgrows, hhere⟩ := h.grows
    obtain ⟨above, hplace, hwrote⟩ := h.manifest_place hp
    obtain ⟨above', -, hsummary⟩ := h.summary_place hs hwanted
    have hhere₁ : d₁.here = d.here := by
      rw [hwrote.eq]
      exact hhere
    have hhere' : d'.here = d₁.here := by rw [hsummary.eq]
    refine Disk.read_eq_ok.mpr (Disk.entry_eq_file_of_keeps hhere' hsummary.keeps ?_ (Disk.read_eq_ok.mp hmanifest))
    intro ns content changed hns hlook
    rw [Disk.resolve_of_keeps hhere₁ (hgrows.toKeeps.trans hwrote.keeps), hplace] at hns
    cases hns
    rw [hsummary.look?_of_ne fun heq => hname (List.singleton_inj.mp (List.append_inj_right' heq rfl))]
    exact hlook

/-- All of it can be done once more, with another manifest. -/
theorem exists_again (m' : Manifest) (hbytes : m'.hasBytes = m.hasBytes) (now' : Instant) :
    ∃ mid' d₁' d'', Delivery d' now' p m' wanted mid' d₁' d'' := by
  obtain ⟨ns, -, hmanifest⟩ := Disk.wrote_of_write h.manifest
  have hwrites := Disk.Writes.of_wrote hmanifest
  have hsame : ∃ places, d₁.Writes places d' := by
    cases hwanted : wanted with
    | false => exact ⟨[], h.unwanted hwanted ▸ .refl d₁⟩
    | true =>
      obtain ⟨ns, -, hsummary⟩ := Disk.wrote_of_write (h.summary hwanted).2
      exact ⟨[ns], .of_wrote hsummary⟩
  obtain ⟨places, hsame⟩ := hsame
  have hall := hwrites.trans hsame
  have hroom := Disk.makeDirectories_of_isDirectory
    (Disk.isDirectory_of_keeps hall.here hall.forth h.isDirectory_parent)
  obtain ⟨d₁', hagain⟩ := Disk.exists_write_again h.manifest hall.here hall.forth hall.back
    (m'.toJson ++ ['\n']) now'.micros
  cases hwanted : wanted with
  | false => exact ⟨d', d₁', d₁', h.named, hroom, hagain, fun _ => rfl, nofun⟩
  | true =>
    obtain ⟨hhas, hsummary⟩ := h.summary hwanted
    obtain ⟨ns', -, hwrote⟩ := Disk.wrote_of_write hagain
    have hnext := hsame.trans (.of_wrote hwrote)
    obtain ⟨d'', hsummary'⟩ := Disk.exists_write_again hsummary hnext.here hnext.forth hnext.back
      (m'.summary m'.generatedAt) now'.micros
    exact ⟨d', d₁', d'', h.named, hroom, hagain, nofun, fun _ => ⟨hbytes.trans hhas, hsummary'⟩⟩

end Delivery

/-- A project without patterns and a package has an analysis, and the summary of it has bytes. -/
theorem exists_survey_of_bare (now : Instant) (c : Config) (henters : Enters d a root)
    (hpatterns : d.isThere (root.child Ignore.fileName) = false)
    (hpackage : d.isThere (root.child packageName) = false) :
    ∃ m, survey d now root c = .ok m ∧ m.hasBytes = true := by
  have hroot := Disk.resolved_resolved henters.resolved
  obtain ⟨m, hm⟩ := exists_survey_of_absent now c hroot hpatterns
  refine ⟨m, hm, ?_⟩
  unfold Manifest.hasBytes
  rw [metadata_of_absent hroot hpackage hm]
  rfl

/-- A project that has an analysis gets a manifest and a summary where there is room for them, and nothing yet. -/
theorem exists_generates {ns ns' : List Text} (henters : Enters d a root)
    (hconfig : loadConfig d root {} (debugOf a) = .ok c) (hm : survey d now root c = .ok m) (hbytes : m.hasBytes = true)
    (hnull : (outputPath root c a.output).parent.hasNull = false ∧ (outputPath root c a.output).hasNull = false)
    (hroom : d.makeDirectories (outputPath root c a.output).parent = (mid, none))
    (hmanifest : mid.find (outputPath root c a.output) = .ok (ns, none))
    (hsummary : mid.find (summaryPath (outputPath root c a.output)) = .ok (ns', none)) (hne : ns' ≠ ns) :
    ∃ d', Generates d now a root c m d' := by
  obtain ⟨d₁, hwrite⟩ := Disk.exists_write_of_find hmanifest (m.toJson ++ ['\n']) now.micros
  obtain ⟨ns₁, hplace, hwrote⟩ := Disk.wrote_of_write hwrite
  have hlink := Disk.root_ne_link_of_find hmanifest (fun t => by simp)
  obtain ⟨-, -, hresolve⟩ := Disk.find_spec hlink hmanifest
  obtain rfl : ns₁ = ns := by
    cases hplace.symm.trans hresolve
    rfl
  have hfree : d₁.find (summaryPath (outputPath root c a.output)) = .ok (ns', none) := by
    obtain ⟨-, hnone, -⟩ := Disk.find_spec hlink hsummary
    have hlook := hwrote.look?_of_ne hne
    rw [Entry.look?_eq_none.mpr hnone.symm, Entry.look?_eq_none] at hlook
    rw [← hlook]
    exact Disk.find_of_keeps (by rw [hwrote.eq]) hwrote.keeps hlink hsummary
  obtain ⟨d₂, hwrite'⟩ := Disk.exists_write_of_find hfree (m.summary m.generatedAt) now.micros
  cases hwanted : a.summary.getD c.summary with
  | false =>
    have hdelivery : Delivery d now (outputPath root c a.output) m false mid d₁ d₁ :=
      ⟨hnull, hroom, hwrite, fun _ => rfl, nofun⟩
    exact ⟨d₁, henters, hconfig, hm, hwanted ▸ deliver_eq_ok.mpr ⟨mid, d₁, hdelivery⟩⟩
  | true =>
    have hdelivery : Delivery d now (outputPath root c a.output) m true mid d₁ d₂ :=
      ⟨hnull, hroom, hwrite, nofun, fun _ => ⟨hbytes, hwrite'⟩⟩
    exact ⟨d₂, henters, hconfig, hm, hwanted ▸ deliver_eq_ok.mpr ⟨mid, d₁, hdelivery⟩⟩

end Run

end CodeManifest
