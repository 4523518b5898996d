import CodeManifest.Proofs.Files.Names
import CodeManifest.Proofs.Files.Written
import CodeManifest.Proofs.Pipeline
import CodeManifest.Proofs.Project.Settings
import CodeManifest.Proofs.Project.Walk
import CodeManifest.Proofs.Run.Report

namespace CodeManifest

open Files

/-- A file that has the same name and the same content on two disks. -/
structure ReadsAlike (d d' : Disk) (file : Text) : Prop where
  named : ∀ root, d'.nameWithin root (.ofText file) = d.nameWithin root (.ofText file)
  read : ∀ root : Path, d'.read (root.join (.ofText file)) = d.read (root.join (.ofText file))

section Scans

variable {d d' : Disk} {file : Text}

theorem Tool.Progress.step_of_readsAlike (h : ReadsAlike d d' file) (p : Tool.Progress) :
    p.step d' file = p.step d file := by
  unfold step Scanner.scanFile Scanner.source
  simp only [h.named, h.read]

theorem Schema.Progress.step_of_readsAlike (h : ReadsAlike d d' file) (p : Schema.Progress) :
    p.step d' file = p.step d file := by
  unfold step Scanner.scanFile
  simp only [h.named, h.read]

theorem Pipeline.run_of_readsAlike {root : Path} {sources sqlFiles dialects : List Text}
    (hroot : d'.resolved root = d.resolved root) (hsources : ∀ file ∈ sources, ReadsAlike d d' file)
    (hsqlFiles : ∀ file ∈ sqlFiles, ReadsAlike d d' file) (schedule : List Task) :
    run d' root sources sqlFiles dialects schedule = run d root sources sqlFiles dialects schedule := by
  have hstart : start d' root sources sqlFiles dialects = start d root sources sqlFiles dialects := by
    unfold start Tool.Scanner.ofRoot Schema.Scanner.ofRoot
    rw [hroot]
  have htools (p : Tool.Progress) : sources.foldl (Tool.Progress.step d') p = sources.foldl (Tool.Progress.step d) p :=
    List.foldl_ext _ _ p fun p file hfile => Tool.Progress.step_of_readsAlike (hsources file hfile) p
  have hresources (p : Schema.Progress) :
      sqlFiles.foldl (Schema.Progress.step d') p = sqlFiles.foldl (Schema.Progress.step d) p :=
    List.foldl_ext _ _ p fun p file hfile => Schema.Progress.step_of_readsAlike (hsqlFiles file hfile) p
  unfold run
  simp only [State.run_sources, State.run_schemas, hstart]
  unfold start Lane.drain
  simp only [htools, hresources]

/-- A file of the project is handed to the scans by the text of its path. -/
theorem readsAlike_of_entry {ns : List Text} {content : ByteArray} {changed : Int}
    (hresolved : ∀ p, d'.resolved p = d.resolved p) (hnames : ∀ n ∈ ns, IsName n)
    (h : d.entry ⟨['/'], ns⟩ = .ok (.file content changed)) (h' : d'.entry ⟨['/'], ns⟩ = .ok (.file content changed)) :
    ReadsAlike d d' (Path.render ⟨['/'], ns⟩) where
  named root := by
    have hsame : d'.resolved = d.resolved := funext hresolved
    unfold Disk.nameWithin
    rw [hsame]
  read root := by
    rw [Path.ofText_render hnames]
    change d'.read ⟨['/'], ns⟩ = d.read ⟨['/'], ns⟩
    unfold Disk.read
    rw [h, h']

end Scans

namespace Project

/-- The ends of the names of files that an analysis looks for, in small letters. -/
def lookedFor (extensions : List Text) : List Text := ".sql".toList :: extensions.map Text.lower

/-- Nothing that an analysis of a project looks at is different. -/
structure Alike (d d' : Disk) (root : Path) (extensions : List Text) : Prop where
  resolved : ∀ p, d'.resolved p = d.resolved p
  patterns : ∀ t, Ignore.HasText d root t → Ignore.HasText d' root t
  package : ∀ content changed, d'.entry (root.child packageName) = .ok (.file content changed) ↔
    d.entry (root.child packageName) = .ok (.file content changed)
  shows : ∀ above name content changed, Path.parentName ∉ root.parts ++ (above ++ [name]) →
    Text.lower (Path.suffixOf name) ∈ lookedFor extensions →
    (d'.Shows (root.parts ++ (above ++ [name])) content changed ↔
      d.Shows (root.parts ++ (above ++ [name])) content changed)

section Found

variable {p p' : Place} {w : Wanted} {es es' : List (Text × Entry)} {above : List Text} {name : Text}

theorem Place.HasTree.shows_iff (h : p.HasTree es) {names : List Text} {content : ByteArray} {changed : Int} :
    p.disk.Shows (p.root.parts ++ names) content changed ↔
      (∃ e, Entry.at? (.directory es) names = some e ∧ e.isDirectory = false) ∧
        p.disk.entry (p.path names) = .ok (.file content changed) := by
  unfold Disk.Shows
  rw [h.at?_append, h.path_eq]

/-- A file of the project itself is what its name shows. -/
theorem Place.HasTree.entry_child_iff (h : p.HasTree es) (hname : name ≠ Path.parentName) {content : ByteArray}
    {changed : Int} : p.disk.entry (p.root.child name) = .ok (.file content changed) ↔
      p.disk.Shows (p.root.parts ++ [name]) content changed := by
  rw [h.shows_iff]
  refine ⟨fun hentry => ⟨?_, hentry⟩, fun hs => hs.2⟩
  have hpath : p.root.child name = ⟨['/'], p.root.parts ++ [name]⟩ := h.path_eq [name]
  obtain ⟨place, hfind⟩ := Disk.entry_eq_ok.mp hentry
  have habove : follow p.disk.root maxLinks [] p.root.parts = .ok (p.root.parts, some (.directory es)) :=
    follow_of_direct h.direct h.there
  obtain ⟨rest, happend⟩ := exists_follow_append habove
  unfold Disk.find at hfind
  rw [hpath, Disk.names_absolute, happend, follow, h.there] at hfind
  dsimp only at hfind
  rw [if_neg hname] at hfind
  cases hget : Keyed.get? name es with
  | none =>
    rw [hget] at hfind
    cases hfind
  | some e =>
    refine ⟨e, by simp [Entry.at?, Entry.child?, hget], ?_⟩
    cases e with
    | file content changed => rfl
    | link t => rfl
    | directory inside =>
      rw [hget, follow, h.at?_append] at hfind
      simp [Entry.at?, Entry.child?, hget] at hfind

/-- A file that is shown again is found again. -/
theorem Selects.again (hp : p.HasTree es) (hp' : p'.HasTree es') (h : Selects p w (.directory es) above name)
    (hshows : ∀ content changed, p.disk.Shows (p.root.parts ++ (above ++ [name])) content changed →
      p'.disk.Shows (p'.root.parts ++ (above ++ [name])) content changed) :
    Selects p' w (.directory es') above name := by
  obtain ⟨content, changed, hentry, hsize⟩ := h.size
  obtain ⟨hreached, hentry'⟩ := hp'.shows_iff.mp (hshows content changed (hp.shows_iff.mpr ⟨h.reached, hentry⟩))
  exact ⟨hreached, h.opens, h.visible, h.extension, h.unexcluded, h.unmatched, content, changed, hentry', hsize⟩

/-- The files that are found are in the order of their paths, however they came. -/
theorem Found.files_ofVisits_congr (root : Path) (what : Text) {us vs : List Visit}
    (hu : (us.filterMap Visit.file?).Nodup) (hv : (vs.filterMap Visit.file?).Nodup)
    (h : ∀ ns, ns ∈ us.filterMap Visit.file? ↔ ns ∈ vs.filterMap Visit.file?) :
    (ofVisits root what us).files = (ofVisits root what vs).files := by
  have hperm (ws : List Visit) : (ofVisits root what ws).files.Perm (inWalkOrder ws).files :=
    List.mergeSort_perm _ _
  have hsame : (inWalkOrder us).files.Perm (inWalkOrder vs).files :=
    ((List.perm_ext_iff_of_nodup hu hv).mpr h).map _
  refine Path.eq_of_before ?_ (sorts_ofVisits root what hu).pairwise (sorts_ofVisits root what hv).pairwise
  exact ((hperm us).trans hsame).trans (hperm vs).symm

theorem Found.mem_files_ofVisits {root q : Path} {what : Text} {vs : List Visit} :
    q ∈ (ofVisits root what vs).files ↔ ∃ ns ∈ vs.filterMap Visit.file?, q = { parts := ns } := by
  simp [ofVisits, inWalkOrder, eq_comm]

end Found

variable {d d' : Disk} {root : Path} {now : Instant}

theorem readMetadata_of_unreadable (hroot : d.resolved root = .ok root)
    (h : ∀ content changed, d.entry (root.child packageName) ≠ .ok (.file content changed)) :
    ∃ records, readMetadata d root = .ok ({ name := .text root.name }, records) := by
  have hread : ∃ e, d.readText (root.child packageName) = .error e := by
    unfold Disk.readText Disk.read
    cases hentry : d.entry (root.child packageName) with
    | error o => exact ⟨_, rfl⟩
    | ok e =>
      cases e with
      | file content changed => exact absurd hentry (h content changed)
      | link t => exact ⟨_, rfl⟩
      | directory es => exact ⟨_, rfl⟩
  obtain ⟨e, he⟩ := hread
  unfold readMetadata
  rw [hroot]
  simp only [bind, Except.bind]
  split
  · exact ⟨_, rfl⟩
  · unfold Package.read
    rw [he]
    exact ⟨_, rfl⟩

theorem readMetadata_of_alike {extensions : List Text} (h : Alike d d' root extensions)
    (hroot : d.resolved root = .ok root) {m : Metadata} {rs : List Log.Record}
    (hm : readMetadata d root = .ok (m, rs)) : ∃ rs', readMetadata d' root = .ok (m, rs') := by
  have hroot' : d'.resolved root = .ok root := (h.resolved root).trans hroot
  by_cases hfile : ∃ content changed, d.entry (root.child packageName) = .ok (.file content changed)
  · obtain ⟨content, changed, hentry⟩ := hfile
    have hentry' := (h.package content changed).mpr hentry
    refine ⟨rs, ?_⟩
    rw [← hm]
    unfold readMetadata Package.read Disk.readText Disk.read Disk.isThere
    rw [hroot, hroot']
    simp only [bind, Except.bind]
    rw [hentry, hentry']
  · have hno (content : ByteArray) (changed : Int) : d.entry (root.child packageName) ≠ .ok (.file content changed) :=
      fun hentry => hfile ⟨content, changed, hentry⟩
    obtain ⟨records, hunknown⟩ := readMetadata_of_unreadable hroot hno
    rw [hunknown] at hm
    cases hm
    exact readMetadata_of_unreadable hroot' fun content changed hentry =>
      hno content changed ((h.package content changed).mp hentry)

theorem Ignore.exists_hasText {further ignored : List Text} (h : load d root further = .ok ignored) :
    ∃ t, HasText d root t := by
  unfold load at h
  cases hthere : d.isThere (root.child fileName) with
  | false => exact ⟨[], by simp [HasText, hthere]⟩
  | true =>
    dsimp only at h
    rw [if_pos hthere] at h
    obtain ⟨patterns, hpatterns, -⟩ := exists_of_bind_eq_ok h
    obtain ⟨t, ht, -⟩ := exists_of_map_eq_ok hpatterns
    exact ⟨t, by simp [HasText, hthere, ht]⟩

section Analyses

variable {es es' : List (Text × Entry)} {t : Text}

theorem Place.HasTree.resolved_root {p : Place} (h : p.HasTree es) : p.disk.resolved p.root = .ok p.root := by
  rw [h.root_eq]
  exact Disk.resolved_of_direct h.direct

/-- What a walk finds on one disk it finds on the other, where it reads the same. -/
structure SameFinds (d d' : Disk) (root : Path) (us vs : List Visit) : Prop where
  before : (us.filterMap Visit.file?).Nodup
  after : (vs.filterMap Visit.file?).Nodup
  same : ∀ ns, ns ∈ us.filterMap Visit.file? ↔ ns ∈ vs.filterMap Visit.file?
  reads : ∀ ns ∈ us.filterMap Visit.file?, ReadsAlike d d' (root.join { parts := ns }).render

theorem SameFinds.files_eq {us vs : List Visit} (h : SameFinds d d' root us vs) (what : Text) :
    (Found.ofVisits root what us).files = (Found.ofVisits root what vs).files :=
  Found.files_ofVisits_congr root what h.before h.after h.same

theorem SameFinds.readsAlike {us vs : List Visit} (h : SameFinds d d' root us vs) (what : Text) :
    ∀ file ∈ (Found.ofVisits root what us).files.map fun p => (root.join p).render, ReadsAlike d d' file := by
  intro file hfile
  obtain ⟨q, hq, rfl⟩ := List.mem_map.mp hfile
  obtain ⟨ns, hns, rfl⟩ := Found.mem_files_ofVisits.mp hq
  exact h.reads ns hns

variable {extensions : List Text} (hp : Place.HasTree ⟨d, root⟩ es) (hp' : Place.HasTree ⟨d', root⟩ es')
  (hproper : d.IsProper) (h : Alike d d' root extensions)

include hp hp' hproper h

theorem exists_walks_of_alike (hown : Ignore.HasText d root t) (wanted : List Text)
    (hwanted : ∀ x ∈ wanted.map Text.lower, x ∈ lookedFor extensions) (further directories excluded : List Text) :
    ∃ us vs, walk d root wanted further directories excluded = .ok us ∧
      walk d' root wanted further directories excluded = .ok vs ∧ SameFinds d d' root us vs := by
  obtain ⟨us, hus, hmem, hcomes⟩ := exists_walk hp.resolved_root hp hown wanted further directories excluded
  obtain ⟨vs, hvs, hmem', hcomes'⟩ :=
    exists_walk hp'.resolved_root hp' (h.patterns t hown) wanted further directories excluded
  -- Wherever a file is found, both disks show the same.
  have hshows {p : Place} {w : Wanted} {tree : Entry} {above : List Text} {name : Text}
      (hs : Selects p w tree above name) (hw : w.extensions = wanted.map Text.lower) (content : ByteArray)
      (changed : Int) : d'.Shows (root.parts ++ (above ++ [name])) content changed ↔
        d.Shows (root.parts ++ (above ++ [name])) content changed := by
    refine h.shows above name content changed ?_ (hwanted _ (hw ▸ hs.extension))
    rw [List.mem_append, not_or]
    exact ⟨hp.direct.forward, forward_of_opens hs.opens hs.visible⟩
  refine ⟨us, vs, hus, hvs, Comes.nodup hcomes, Comes.nodup hcomes', fun ns => ?_, fun ns hns => ?_⟩
  · rw [hmem, hmem']
    refine exists_congr fun above => exists_congr fun name => and_congr_right fun _ => ⟨fun hs => ?_, fun hs => ?_⟩
    · exact hs.again hp hp' fun content changed => (hshows hs rfl content changed).mpr
    · exact hs.again hp' hp fun content changed => (hshows hs rfl content changed).mp
  · obtain ⟨above, name, rfl, hs⟩ := (hmem ns).mp hns
    obtain ⟨content, changed, hentry, -⟩ := hs.size
    have hbefore : d.Shows (root.parts ++ (above ++ [name])) content changed :=
      hp.shows_iff.mpr ⟨hs.reached, hentry⟩
    have hafter := (hshows hs rfl content changed).mpr hbefore
    obtain ⟨⟨e, hat, -⟩, hentry⟩ := hbefore
    have hpath : root.join { parts := above ++ [name] } = ⟨['/'], root.parts ++ (above ++ [name])⟩ :=
      hp.path_eq (above ++ [name])
    rw [hpath]
    exact readsAlike_of_entry h.resolved (hproper.names _ e hat) hentry hafter.2

end Analyses

end Project

open Project in
/-- An analysis of a project that looks alike comes to the same, but for the time. -/
theorem Run.survey_of_alike {d d' : Disk} {root : Path} {es es' : List (Text × Entry)} {c : Config} {m : Manifest}
    {now : Instant} (hp : Place.HasTree ⟨d, root⟩ es) (hp' : Place.HasTree ⟨d', root⟩ es') (hproper : d.IsProper)
    (h : Alike d d' root c.sourceExtensions) (hm : survey d now root c = .ok m) (now' : Instant) :
    survey d' now' root c = .ok { m with generatedAt := now' } := by
  obtain ⟨t, hown⟩ : ∃ t, Ignore.HasText d root t := by
    obtain ⟨sources, hsources, -⟩ := exists_of_bind_eq_ok hm
    obtain ⟨vs, hwalk, -⟩ := exists_of_bind_eq_ok hsources
    obtain ⟨ignored, hload, -⟩ := exists_of_bind_eq_ok hwalk
    exact Ignore.exists_hasText hload
  have hwalks := exists_walks_of_alike hp hp' hproper h hown
  obtain ⟨us, vs, hus, hvs, hsources⟩ := hwalks c.sourceExtensions
    (fun x hx => List.mem_cons_of_mem _ hx) c.ignorePatterns [] excludedSources
  obtain ⟨us', vs', hus', hvs', hsql⟩ := hwalks [".sql"] (fun x hx => List.mem_singleton.mp hx ▸ List.mem_cons_self)
    c.ignorePatterns excludedSqlDirectories []
  obtain ⟨records, hmetadata⟩ := exists_readMetadata_of_survey hm
  obtain ⟨records', hmetadata'⟩ := readMetadata_of_alike h hp.resolved_root hmetadata
  rw [survey_of_found now (findSources_of_walk hus) (findSql_of_walk hus') hmetadata] at hm
  rw [survey_of_found now' (findSources_of_walk hvs) (findSql_of_walk hvs') hmetadata']
  have hrun : Pipeline.run d' root _ _ c.dialectNames [] = _ :=
    Pipeline.run_of_readsAlike (h.resolved root) (hsources.readsAlike "source") (hsql.readsAlike "SQL") []
  rw [← hsources.files_eq, ← hsql.files_eq, hrun]
  exact congrArg (fun x => x.map fun m => { m with generatedAt := now' }) hm

end CodeManifest
