import CodeManifest.Proofs.Project.Alike
import CodeManifest.Proofs.Run.Delivery

namespace CodeManifest.Run

open Files Log Project

variable {d d' mid : Disk} {a : CommandLine.Arguments} {p root : Path} {c : Config} {wanted : Bool}

/-- The files of a project that a run looks at by their names. -/
def ownNames : List Text := [packageName, settingsName, Ignore.fileName]

/-- The manifest is none of the files that a run looks at, and no link leads to it or to the summary. -/
structure Clear (d : Disk) (root : Path) (c : Config) (p : Path) : Prop where
  extension : Text.lower p.suffix ∉ lookedFor c.sourceExtensions
  own : ∀ name ∈ ownNames, d.resolve p ≠ .ok (root.child name)
  manifest : d.Unlinked p
  summary : d.Unlinked (summaryPath p)

/-- A place below the root that an analysis looks at, by its name or by the end of it. -/
inductive LooksAt (c : Config) : List Text → Prop
  | package : LooksAt c [packageName]
  | ending {above : List Text} {name : Text} (h : Text.lower (Path.suffixOf name) ∈ lookedFor c.sourceExtensions) :
      LooksAt c (above ++ [name])

/-- The directories that lead to the manifest are no file of settings or patterns, and no link that an analysis looks
at leads to a file only since they are there. -/
structure RoomClear (d : Disk) (root : Path) (c : Config) (p : Path) : Prop where
  own : ∀ name ∈ [settingsName, Ignore.fileName], d.isThere (root.child name) = false →
    (d.makeDirectories p.parent).1.isThere (root.child name) = false
  links : ∀ names t content changed, LooksAt c names → d.root.at? (root.parts ++ names) = some (.link t) →
    (d.makeDirectories p.parent).1.entry ⟨['/'], root.parts ++ names⟩ = .ok (.file content changed) →
    d.entry ⟨['/'], root.parts ++ names⟩ = .ok (.file content changed)

section Again

variable {places : List (List Text)} {es es' : List (Text × Entry)} {name : Text}

namespace Target

variable {r above : List Text} (hclear : Clear d root c p)

include hclear

/-- None of the files that a run looks at by their names is written. -/
theorem ne_child (hroot : Place.HasTree ⟨d, root⟩ es) (hname : name ∈ ownNames) (hr : Target d p wanted r) :
    r ≠ root.parts ++ [name] := by
  rintro heq
  cases hr with
  | manifest hplace =>
    have hpath : root.child name = ⟨['/'], root.parts ++ [name]⟩ := hroot.path_eq [name]
    refine hclear.own name hname ?_
    rw [hplace, heq, hpath]
  | summary hwanted hplace =>
    have hnames : ∀ name ∈ ownNames, summaryName ≠ name := by decide
    exact hnames name hname (List.append_inj_right' heq rfl |> List.singleton_inj.mp)

/-- No link makes one of them stand for what is written. -/
theorem ne_own (hroot : Place.HasTree ⟨d, root⟩ es) (hname : name ∈ ownNames) (hr : Target d p wanted r) :
    d.resolve (root.child name) ≠ .ok ⟨['/'], r⟩ := by
  have hpath : root.child name = ⟨['/'], root.parts ++ [name]⟩ := hroot.path_eq [name]
  rw [hpath]
  by_cases hlink : ∃ t, d.root.at? (root.parts ++ [name]) = some (.link t)
  · obtain ⟨t, hat⟩ := hlink
    cases hr with
    | manifest hplace => exact hplace ▸ hclear.manifest _ t hat
    | summary hwanted hplace => exact hplace ▸ hclear.summary _ t hat
  · have hnames : ∀ name ∈ ownNames, name ≠ Path.parentName := by decide
    have hdirect : IsDirect d.root (root.parts ++ [name]) :=
      hroot.direct.append_singleton (hnames name hname) fun t hat => hlink ⟨t, hat⟩
    unfold Disk.resolve
    rw [Disk.names_absolute, resolveFrom_of_direct (by simpa using hdirect)]
    intro heq
    cases heq
    exact hr.ne_child hclear hroot hname (by simp)

/-- Nothing is written that a run looks for by the end of its name. -/
theorem not_lookedFor (hextensions : ∀ x ∈ c.sourceExtensions, x ∈ Config.supportedExtensions)
    (hr : Target d p wanted (above ++ [name])) :
    Text.lower (Path.suffixOf name) ∉ lookedFor c.sourceExtensions := by
  generalize heq : above ++ [name] = r at hr
  have hlast {b : List Text} {n : Text} (h : above ++ [name] = b ++ [n]) : name = n :=
    List.singleton_inj.mp (List.append_inj_right' h rfl)
  cases hr with
  | manifest hplace =>
    rw [hlast heq]
    exact hclear.extension
  | summary hwanted hplace =>
    have hsupported : ∀ x ∈ Config.supportedExtensions, Text.lower (Path.suffixOf summaryName) ≠ Text.lower x := by
      decide
    rw [hlast heq]
    intro hmem
    rcases List.mem_cons.mp hmem with hsql | hmem
    · revert hsql
      decide
    · obtain ⟨x, hx, hlower⟩ := List.mem_map.mp hmem
      exact hsupported x (hextensions x hx) hlower.symm

end Target

section OwnFiles

variable (h : Hidden d mid d' places) {q : Path} (hq : ∀ r ∈ places, d.resolve q ≠ .ok ⟨['/'], r⟩)

include h hq

theorem readText_again {t : Text} (hread : d.readText q = .ok t) : d'.readText q = .ok t := by
  rw [← hread]
  unfold Disk.readText at hread ⊢
  cases hbytes : d.read q with
  | error e =>
    rw [hbytes] at hread
    cases hread
  | ok x =>
    obtain ⟨content, changed⟩ := x
    rw [Disk.read_eq_ok.mpr (h.entry_forth hq (Disk.read_eq_ok.mp hbytes))]

theorem isThere_again (hroot : ∀ t, d'.root ≠ .link t) (habsent : mid.isThere q = false) :
    d'.isThere q = false := by
  refine Bool.eq_false_iff.mpr fun hthere => ?_
  unfold Disk.isThere at hthere
  cases hentry : d'.entry q with
  | error o =>
    rw [hentry] at hthere
    cases hthere
  | ok e =>
    obtain ⟨e', he', -⟩ := h.entry_back hq hroot hentry
    unfold Disk.isThere at habsent
    rw [he'] at habsent
    cases habsent

end OwnFiles

section Project

variable (h : Hidden d mid d' places) (htargets : ∀ r ∈ places, Target d p wanted r) (hclear : Clear d root c p)
  (hroot : Place.HasTree ⟨d, root⟩ es) (hroot' : Place.HasTree ⟨d', root⟩ es')
  (hmid : (d.makeDirectories p.parent).1 = mid) (hroom : RoomClear d root c p)

include h htargets hclear hroot hroot' hmid hroom

theorem loadConfig_again {e : Environment} {debug : Option Bool} (hconfig : loadConfig d root e debug = .ok c) :
    loadConfig d' root e debug = .ok c := by
  have hq : ∀ r ∈ places, d.resolve (root.child settingsName) ≠ .ok ⟨['/'], r⟩ := fun r hr =>
    (htargets r hr).ne_own hclear hroot (by decide)
  obtain ⟨v, hv, hvalue⟩ := exists_of_bind_eq_ok hconfig
  have hv' : readSettings d' root = .ok v := by
    cases hthere : d.isThere (root.child settingsName) with
    | false =>
      rw [readSettings_of_absent hthere] at hv
      rw [← hv]
      have habsent := hroom.own settingsName (by decide) hthere
      rw [hmid] at habsent
      exact readSettings_of_absent (isThere_again h hq hroot'.direct.root_ne_link habsent)
    | true =>
      cases hread : d.readText (root.child settingsName) with
      | error f =>
        rw [readSettings_of_error hthere hread] at hv
        cases hv
      | ok t =>
        rw [readSettings_of_text hread] at hv
        rw [readSettings_of_text (readText_again h hq hread)]
        exact hv
  unfold loadConfig
  rw [hv']
  exact hvalue

theorem hasText_again {t : Text} (hown : Ignore.HasText d root t) : Ignore.HasText d' root t := by
  have hq : ∀ r ∈ places, d.resolve (root.child Ignore.fileName) ≠ .ok ⟨['/'], r⟩ := fun r hr =>
    (htargets r hr).ne_own hclear hroot (by decide)
  unfold Ignore.HasText at hown ⊢
  cases hthere : d.isThere (root.child Ignore.fileName) with
  | false =>
    have habsent := hroom.own Ignore.fileName (by decide) hthere
    rw [hmid] at habsent
    rw [isThere_again h hq hroot'.direct.root_ne_link habsent, if_neg Bool.false_ne_true]
    rw [hthere, if_neg Bool.false_ne_true] at hown
    exact hown
  | true =>
    rw [if_pos hthere] at hown
    have hread := readText_again h hq hown
    rw [if_pos (isThere_of_readText hread)]
    exact hread

/-- What a run wrote leaves no trace in what it looks at. -/
theorem alike_again (hextensions : ∀ x ∈ c.sourceExtensions, x ∈ Config.supportedExtensions) :
    Alike d d' root c.sourceExtensions := by
  have hshows {names : List Text} {content : ByteArray} {changed : Int} (hlooks : LooksAt c names)
      (hq : root.parts ++ names ∉ places) (hforward : Path.parentName ∉ root.parts ++ names) :
      d'.Shows (root.parts ++ names) content changed ↔ d.Shows (root.parts ++ names) content changed := by
    refine h.shows_iff hq hforward fun t hat hentry => ?_
    have hstill := hroom.links names t content changed hlooks hat
    rw [hmid] at hstill
    exact hstill hentry
  refine ⟨h.resolved_eq, fun t => hasText_again h htargets hclear hroot hroot' hmid hroom, ?_, ?_⟩
  · intro content changed
    have hne : packageName ≠ Path.parentName := by decide
    rw [hroot.entry_child_iff hne, hroot'.entry_child_iff hne]
    refine hshows .package (fun hmem => (htargets _ hmem).ne_child hclear hroot (by decide) rfl) ?_
    rw [List.mem_append, not_or]
    exact ⟨hroot.direct.forward, by decide⟩
  · intro above name content changed hforward hend
    refine hshows (.ending hend) (fun hmem => ?_) hforward
    rw [← List.append_assoc] at hmem
    exact (htargets _ hmem).not_lookedFor hclear hextensions hend

end Project

end Again

theorem generatedAt_of_survey {now : Instant} {m : Manifest} (h : survey d now root c = .ok m) :
    m.generatedAt = now := by
  unfold survey at h
  obtain ⟨_, -, h⟩ := exists_of_bind_eq_ok h
  obtain ⟨_, -, h⟩ := exists_of_bind_eq_ok h
  obtain ⟨_, -, h⟩ := exists_of_bind_eq_ok h
  cases h
  rfl

/-- The text of a summary in front of its time. -/
def summaryOpening : Text := "# MCP Manifest Summary".toList ++ '\n' :: '\n' :: "Generated: ".toList

theorem join_summary (time : Text) {lines : List Text} (h : lines ≠ []) :
    Text.join "\n" ("# MCP Manifest Summary".toList :: [] :: ("Generated: ".toList ++ time) :: lines) =
      summaryOpening ++ time ++ '\n' :: Text.join "\n" lines := by
  rw [Text.join_cons _ _ (List.cons_ne_nil _ _), Text.join_cons _ _ (List.cons_ne_nil _ _), Text.join_cons _ _ h]
  unfold summaryOpening
  generalize "# MCP Manifest Summary".toList = x
  generalize "Generated: ".toList = y
  have hbreak : "\n".toList = ['\n'] := rfl
  rw [hbreak]
  simp

/-- The time of a manifest stands in one line of its summary. -/
theorem exists_summary_eq (m : Manifest) : ∃ rest, ∀ now : Instant,
    ({ m with generatedAt := now } : Manifest).summary now = summaryOpening ++ now.renderUtc ++ '\n' :: rest := by
  obtain ⟨lines, hne, hlines⟩ : ∃ lines, lines ≠ [] ∧ ∀ now, m.summary now = Text.join "\n"
      ("# MCP Manifest Summary".toList :: [] :: ("Generated: ".toList ++ now.renderUtc) :: lines) := by
    unfold Manifest.summary
    exact ⟨_, List.cons_ne_nil _ _, fun now => rfl⟩
  refine ⟨Text.join "\n" lines, fun now => ?_⟩
  rw [← join_summary now.renderUtc hne, ← hlines now]
  rfl

/-- The project is still there. -/
theorem Enters.again {places : List (List Text)} (henters : Enters d a root) (h : Hidden d mid d' places) :
    Enters d' a root where
  named := henters.named
  resolved := (h.resolved_eq _).trans henters.resolved
  directory := Disk.isDirectory_of_keeps h.here_eq h.keeps henters.directory

theorem exists_hasTree_of_enters (h : Enters d a root) (htree : d.root.IsTree) :
    ∃ es, Place.HasTree ⟨d, root⟩ es := by
  obtain ⟨place, es, hfind⟩ := Disk.isDirectory_eq_true.mp h.directory
  exact ⟨es, .of_resolved htree h.resolved (Disk.entry_eq_ok.mpr ⟨place, hfind⟩)⟩

/-- A run that ends well leaves the disk as it was, but for the manifest, the summary, and directories that lead to
them; a second run with the same command line ends well too, and writes the same but for the time. The manifest
must not be a file that the run looks at, nor the directories that lead to it bring one into being. -/
theorem generate_again {words : List Text} {now₁ : Instant} {s₁ : Session}
    (hparse : CommandLine.parse words = .ok a) (hcommand : a.command ≠ some .info) (hproper : d.IsProper)
    (hfirst : exec (main {} words) { disk := d, now := now₁ } = (.ok 0, s₁))
    (hroot : d.resolved (.ofText a.root) = .ok root) (hconfig : loadConfig d root {} (debugOf a) = .ok c)
    (hclear : Clear d root c (outputPath root c a.output))
    (hroom : RoomClear d root c (outputPath root c a.output)) (now₂ : Instant) :
    let p := outputPath root c a.output
    let wanted := a.summary.getD c.summary
    ∃ m s₂, exec (main {} words) { disk := s₁.disk, now := now₂ } = (.ok 0, s₂) ∧
      survey d now₁ root c = .ok m ∧ survey s₁.disk now₂ root c = .ok { m with generatedAt := now₂ } ∧
      Delivered s₁.disk p m wanted ∧ Delivered s₂.disk p { m with generatedAt := now₂ } wanted ∧
      (∃ rest, ∀ now : Instant, ({ m with generatedAt := now } : Manifest).summary now =
        summaryOpening ++ now.renderUtc ++ '\n' :: rest) ∧
      (∀ q content changed, d.resolve p ≠ .ok ⟨['/'], q⟩ →
        (wanted = true → d.resolve (summaryPath p) ≠ .ok ⟨['/'], q⟩) →
        (s₁.disk.root.at? q = some (.file content changed) ↔ d.root.at? q = some (.file content changed))) ∧
      ∀ q t, s₁.disk.root.at? q = some (.link t) ↔ d.root.at? q = some (.link t) := by
  intro p wanted
  obtain ⟨root', c', m, hgenerates⟩ := generates_of_exec hparse hcommand hfirst
  obtain rfl : root' = root := Except.ok.inj (hgenerates.enters.resolved.symm.trans hroot)
  obtain rfl : c' = c := Except.ok.inj (hgenerates.config.symm.trans hconfig)
  obtain ⟨mid, d₁, hdelivery⟩ := deliver_eq_ok.mp hgenerates.deliver
  obtain ⟨places, hhidden, htargets⟩ := hdelivery.exists_hidden hclear.manifest hclear.summary
  -- The second run sees what the first one saw.
  have henters := hgenerates.enters.again hhidden
  obtain ⟨es, htree⟩ := exists_hasTree_of_enters hgenerates.enters hproper.tree
  obtain ⟨es', htree'⟩ := exists_hasTree_of_enters henters (hhidden.writes.tree (hhidden.grows.tree hproper.tree))
  have hmid : (d.makeDirectories p.parent).1 = mid := congrArg Prod.fst hdelivery.room
  have hconfig' := loadConfig_again hhidden htargets hclear htree htree' hmid hroom hconfig
  have halike := alike_again hhidden htargets hclear htree htree' hmid hroom (sourceExtensions_of_loadConfig hconfig)
  have hsurvey := survey_of_alike htree htree' hproper halike hgenerates.survey now₂
  -- So it writes the same, and to the same places.
  obtain ⟨mid', d₁', d'', hagain⟩ := hdelivery.exists_again { m with generatedAt := now₂ } rfl now₂
  have hgenerates' : Generates s₁.disk now₂ a root' c' { m with generatedAt := now₂ } d'' :=
    ⟨henters, hconfig', hsurvey, deliver_eq_ok.mpr ⟨mid', d₁', hagain⟩⟩
  obtain ⟨s₂, hsecond, hdisk⟩ := hgenerates'.exists_exec hparse hcommand
  have hdelivered := hagain.delivered (hclear.manifest.of_keeps hhidden.here_eq hhidden.keeps)
    (hclear.summary.of_keeps hhidden.here_eq hhidden.keeps) rfl
  refine ⟨m, s₂, hsecond, hgenerates.survey, hsurvey, ?_, hdisk ▸ hdelivered, exists_summary_eq m, ?_, fun q t => ?_⟩
  · exact hdelivery.delivered hclear.manifest hclear.summary (generatedAt_of_survey hgenerates.survey)
  · intro q content changed hmanifest hsummary
    have hq : q ∉ places := by
      intro hmem
      cases htargets q hmem with
      | manifest hplace => exact hmanifest hplace
      | summary hwanted hplace => exact hsummary hwanted hplace
    rw [← Entry.look?_eq_file, ← Entry.look?_eq_file]
    exact hhidden.look?_file_iff hq
  · rw [← Entry.look?_eq_link, ← Entry.look?_eq_link]
    exact (hhidden.keeps.link q t).symm

/-- The root of a disk, taken as a project. -/
def wholeDisk : Path := ⟨['/'], []⟩

/-- A package file that names the project. -/
def namedPackage : Text := "\x7b\"name\": \"n\"\x7d"

theorem read_namedPackage {changed : Int} (h : d.entry p = .ok (.file (Text.toUtf8 namedPackage) changed)) :
    Package.read d p = .ok (.map [(.text "name", .text "n")]) :=
  read_package h (by decide +kernel) (by cbv)

def shopSources : List (Text × Entry) :=
  [("api.ts", .file (Text.toUtf8 "export function getItem(id: string) \x7b\x7d") 0)]

/-- The files of a project with a package, a table, and a source file that a link leads to. -/
def shopFiles : List (Text × Entry) := [
  ("main.ts", .link "src/api.ts"),
  ("package.json", .file (Text.toUtf8 namedPackage) 0),
  ("shop.sql", .file (Text.toUtf8 "CREATE TABLE item (id INT DEFAULT 7);") 0),
  ("src", .directory shopSources)]

def shopDisk : Disk := { root := .directory [("shop", .directory shopFiles)] }

def shopRoot : Path := ⟨['/'], ["shop"]⟩

/-- The project with the directory of its manifest. -/
def builtDisk : Disk :=
  { root := .directory [("shop", .directory (shopFiles ++ [("build".toList, .directory [])]))] }

theorem shopDisk_isProper : shopDisk.IsProper := by
  have hsrc : Disk.IsProper { root := .directory shopSources } :=
    Disk.isProper_directory (by decide) (List.forall_mem_singleton.mpr ⟨by decide, Disk.isProper_file _ _⟩)
  have hshop : Disk.IsProper { root := .directory shopFiles } := by
    refine Disk.isProper_directory (by decide) fun e he => ?_
    simp only [shopFiles, List.mem_cons, List.not_mem_nil, or_false] at he
    rcases he with rfl | rfl | rfl | rfl
    · exact ⟨by decide, Disk.isProper_link _⟩
    · exact ⟨by decide, Disk.isProper_file _ _⟩
    · exact ⟨by decide, Disk.isProper_file _ _⟩
    · exact ⟨by decide, hsrc⟩
  exact Disk.isProper_directory (by decide) (List.forall_mem_singleton.mpr ⟨by decide, hshop⟩)

theorem shopDisk_links {q : List Text} (h : q ∈ shopDisk.root.linkPlaces) : q = ["shop".toList, "main.ts".toList] := by
  have hplaces : shopDisk.root.linkPlaces = [["shop".toList, "main.ts".toList]] := by cbv
  rw [hplaces] at h
  exact List.mem_singleton.mp h

theorem shopDisk_unlinked (h : shopDisk.resolve p ≠ .ok ⟨['/'], ["shop", "src", "api.ts"]⟩) : shopDisk.Unlinked p := by
  refine .of_linkPlaces fun q hq => ?_
  have htarget : shopDisk.resolve ⟨['/'], ["shop".toList, "main.ts".toList]⟩ =
      .ok ⟨['/'], ["shop", "src", "api.ts"]⟩ := by
    cbv
  rw [shopDisk_links hq, htarget]
  exact h.symm

def shopOutput : Path := ⟨['/'], ["shop", "build", "mcp.json"]⟩

theorem shopDisk_makeDirectories : shopDisk.makeDirectories shopOutput.parent = (builtDisk, none) := by cbv

theorem shopDisk_clear (c : Config) (hextensions : Text.lower ".json" ∉ lookedFor c.sourceExtensions) :
    Clear shopDisk shopRoot c shopOutput := by
  have hresolve : shopDisk.resolve shopOutput = .ok shopOutput := by cbv
  have hresolve' : shopDisk.resolve (summaryPath shopOutput) = .ok (summaryPath shopOutput) := by cbv
  refine ⟨hextensions, fun name hname => ?_, shopDisk_unlinked ?_, shopDisk_unlinked ?_⟩
  · rw [hresolve]
    revert name
    decide
  · rw [hresolve]
    decide
  · rw [hresolve']
    decide

theorem shopDisk_roomClear (c : Config) : RoomClear shopDisk shopRoot c shopOutput := by
  refine ⟨fun name hname _ => ?_, fun names t content changed _ hat => ?_⟩
  · rw [shopDisk_makeDirectories]
    simp only [List.mem_cons, List.not_mem_nil, or_false] at hname
    rcases hname with rfl | rfl
    · cbv
    · cbv
  · have hsame : builtDisk.entry ⟨['/'], ["shop", "main.ts"]⟩ = shopDisk.entry ⟨['/'], ["shop", "main.ts"]⟩ := by cbv
    rw [shopDisk_makeDirectories, shopDisk_links (Entry.mem_linkPlaces hat)]
    exact fun h => hsame ▸ h

theorem generate_again_shop :
    let words : List Text := ["--root", "/shop", "--debug", "-o", "build/mcp.json"]
    ∃ (m : Manifest) (s₁ s₂ : Session),
      shopDisk.isThere shopOutput.parent = false ∧ m.metadata.name = .text "n" ∧
      exec (main {} words) { disk := shopDisk, now := { micros := 0 } } = (.ok 0, s₁) ∧
      exec (main {} words) { disk := s₁.disk, now := { micros := 1 } } = (.ok 0, s₂) ∧
      Delivered s₁.disk shopOutput m true ∧
      Delivered s₂.disk shopOutput { m with generatedAt := { micros := 1 } } true := by
  intro words
  let a : CommandLine.Arguments := { root := "/shop", debug := true, output := some "build/mcp.json" }
  have hparse : CommandLine.parse words = .ok a :=
    CommandLine.parse_line [.root ⟨"/shop", by decide⟩, .debug, .output true ⟨"build/mcp.json", by decide⟩]
  have henters : Enters shopDisk a shopRoot := ⟨by decide, by cbv, by cbv⟩
  have hconfig : loadConfig shopDisk shopRoot {} (debugOf a) = .ok { debug := true } := by cbv
  have hp : outputPath shopRoot { debug := true } a.output = shopOutput := by decide
  have hmanifest : builtDisk.find shopOutput = .ok (["shop".toList, "build".toList, "mcp.json".toList], none) := by
    cbv
  have hsummary : builtDisk.find (summaryPath shopOutput) =
      .ok (["shop".toList, "build".toList, summaryName], none) := by
    cbv
  have hpackage : Package.read shopDisk (shopRoot.child packageName) = .ok (.map [(.text "name", .text "n")]) :=
    read_namedPackage (by cbv)
  obtain ⟨m, hm⟩ := exists_survey_of_absent { micros := 0 } { debug := true } henters.resolved (by cbv)
  have hmetadata := metadata_of_package henters.resolved hpackage hm
  have hname : m.metadata.name = .text "n" := by
    rw [hmetadata]
    cbv
  have hbytes : m.hasBytes = true := by
    unfold Manifest.hasBytes
    rw [hmetadata]
    cbv
  obtain ⟨d', hgenerates⟩ := exists_generates henters hconfig hm hbytes (hp.symm ▸ ⟨by decide, by decide⟩)
    (hp.symm ▸ shopDisk_makeDirectories) (hp.symm ▸ hmanifest) (hp.symm ▸ hsummary) (by decide)
  obtain ⟨s₁, hfirst, -⟩ := hgenerates.exists_exec hparse (by decide)
  obtain ⟨m', s₂, hsecond, hm', -, hbefore, hafter, -⟩ :=
    generate_again hparse (by decide) shopDisk_isProper hfirst henters.resolved hconfig
      (hp.symm ▸ shopDisk_clear _ (by decide)) (hp.symm ▸ shopDisk_roomClear _) { micros := 1 }
  obtain rfl : m = m' := Except.ok.inj (hm.symm.trans hm')
  rw [hp] at hbefore hafter
  exact ⟨m, s₁, s₂, by cbv, hname, hfirst, hsecond, hbefore, hafter⟩

/-- A project with one source file. -/
def plainDisk : Disk := { root := .directory [("a.ts", .file .empty 0)] }

theorem plainDisk_unlinked (p : Path) : plainDisk.Unlinked p := by
  have hplaces : plainDisk.root.linkPlaces = [] := by cbv
  refine .of_linkPlaces fun q hq => ?_
  rw [hplaces] at hq
  cases hq

/-- An output may be named without a command. -/
theorem parse_output (v : CommandLine.Operand) : CommandLine.parse ["-o", v.text] = .ok { output := some v.text } :=
  CommandLine.parse_line [.output true v]

/-- A run that ends well, and what the same command line comes to on the disk that it leaves. -/
structure RunTwice (d : Disk) (words : List Text) (r : Except Failure Nat) (s₁ s₂ : Session) : Prop where
  first : exec (main {} words) { disk := d, now := { micros := 0 } } = (.ok 0, s₁)
  second : exec (main {} words) { disk := s₁.disk, now := { micros := 1 } } = (r, s₂)

/-- A manifest in a directory that is called like the settings. -/
def shadowingOutput : Path := outputPath wholeDisk {} (some ".mcpgen.yaml/out.json".toList)

/-- The project of `plainDisk` with this directory. -/
def shadowedDisk : Disk := { root := .directory [("a.ts", .file .empty 0), (".mcpgen.yaml", .directory [])] }

/-- A run makes a directory on the way to the manifest which the next one takes for its settings. -/
theorem shadowed_stops : Clear plainDisk wholeDisk {} shadowingOutput ∧
    ∃ s₁ s₂, RunTwice plainDisk ["-o", ".mcpgen.yaml/out.json"] (.ok 1) s₁ s₂ := by
  let a : CommandLine.Arguments := { output := some ".mcpgen.yaml/out.json" }
  have hp : outputPath wholeDisk {} a.output = shadowingOutput := rfl
  have hparse : CommandLine.parse ["-o", ".mcpgen.yaml/out.json"] = .ok a :=
    parse_output ⟨".mcpgen.yaml/out.json", by decide⟩
  have henters : Enters plainDisk a wholeDisk := ⟨by decide, by cbv, by cbv⟩
  have hconfig : loadConfig plainDisk wholeDisk {} (debugOf a) = .ok {} := by cbv
  have hresolve : plainDisk.resolve shadowingOutput = .ok shadowingOutput := by cbv
  have hroom : plainDisk.makeDirectories shadowingOutput.parent = (shadowedDisk, none) := by cbv
  have hmanifest : shadowedDisk.find shadowingOutput = .ok ([".mcpgen.yaml".toList, "out.json".toList], none) := by
    cbv
  have hsummary : shadowedDisk.find (summaryPath shadowingOutput) =
      .ok ([".mcpgen.yaml".toList, summaryName], none) := by
    cbv
  have hclear : Clear plainDisk wholeDisk {} shadowingOutput := by
    refine ⟨by decide, fun name hname => ?_, plainDisk_unlinked _, plainDisk_unlinked _⟩
    rw [hresolve]
    revert name
    decide
  obtain ⟨m, hm, hbytes⟩ := exists_survey_of_bare { micros := 0 } {} henters (by cbv) (by cbv)
  obtain ⟨d', hgenerates⟩ := exists_generates henters hconfig hm hbytes ⟨by decide, by decide⟩ (hp.symm ▸ hroom) (hp.symm ▸ hmanifest) (hp.symm ▸ hsummary) (by decide)
  obtain ⟨mid, d₁, hdelivery⟩ := deliver_eq_ok.mp hgenerates.deliver
  rw [hp] at hdelivery
  obtain rfl : shadowedDisk = mid := congrArg Prod.fst (hroom.symm.trans hdelivery.room)
  obtain ⟨places, hhidden, -⟩ := hdelivery.exists_hidden hclear.manifest hclear.summary
  obtain ⟨s₁, hfirst, rfl⟩ := hgenerates.exists_exec hparse (by decide)
  -- The second run cannot read the directory.
  have henters' := henters.again hhidden
  have hsettings : s₁.disk.isDirectory (wholeDisk.child settingsName) = true :=
    Disk.isDirectory_of_keeps hhidden.writes.here hhidden.writes.forth (by cbv)
  obtain ⟨f, hf, hreported⟩ := (Misconfigured.of_isDirectory hsettings).exists_loadConfig {} (debugOf a)
  obtain ⟨s₂, hsecond, -, -⟩ := exec_main hparse s₁.disk { micros := 1 }
  have hcourse : (course s₁.disk { micros := 1 } a).1 = .error f := course_of_config_error henters' hf
  rw [hcourse, ending, if_pos hreported] at hsecond
  exact ⟨hclear, s₁, s₂, hfirst, hsecond⟩

/-- A project whose package file is a link through a directory that is missing. -/
def danglingDisk : Disk :=
  { root := .directory [("p", .file (Text.toUtf8 namedPackage) 0), ("package.json", .link "x/../p")] }

/-- The project with this directory. -/
def revealedDisk : Disk :=
  { root := .directory
      [("p", .file (Text.toUtf8 namedPackage) 0), ("package.json", .link "x/../p"), ("x", .directory [])] }

/-- A manifest in this directory. -/
def revealingOutput : Path := outputPath wholeDisk {} (some "x/out.json".toList)

theorem danglingDisk_unlinked {p : Path} (h : danglingDisk.resolve p ≠ .ok ⟨['/'], ["p"]⟩) :
    danglingDisk.Unlinked p := by
  refine .of_linkPlaces fun q hq => ?_
  have hplaces : danglingDisk.root.linkPlaces = [["package.json".toList]] := by cbv
  have htarget : danglingDisk.resolve ⟨['/'], ["package.json".toList]⟩ = .ok ⟨['/'], ["p"]⟩ := by cbv
  rw [hplaces] at hq
  rw [List.mem_singleton.mp hq, htarget]
  exact h.symm

theorem danglingDisk_clear : Clear danglingDisk wholeDisk {} revealingOutput := by
  have hresolve : danglingDisk.resolve revealingOutput = .ok revealingOutput := by cbv
  have hresolve' : danglingDisk.resolve (summaryPath revealingOutput) = .ok (summaryPath revealingOutput) := by cbv
  refine ⟨by decide, fun name hname => ?_, danglingDisk_unlinked (by rw [hresolve]; decide),
    danglingDisk_unlinked (by rw [hresolve']; decide)⟩
  rw [hresolve]
  revert name
  decide

theorem danglingDisk_isTree : danglingDisk.root.IsTree := by
  refine .directory _ (by decide) fun e he => ?_
  simp only [List.mem_cons, List.not_mem_nil, or_false] at he
  rcases he with rfl | rfl
  · exact .file _ _
  · exact .link _

/-- A run makes a directory on the way to the manifest with which the package file comes to be one. -/
theorem revealed_differs : Clear danglingDisk wholeDisk {} revealingOutput ∧
    ∃ s₁ s₂ m₁ m₂, RunTwice danglingDisk ["-o", "x/out.json"] (.ok 0) s₁ s₂ ∧
      Delivered s₁.disk revealingOutput m₁ true ∧ m₁.metadata.name = .text [] ∧
      Delivered s₂.disk revealingOutput m₂ true ∧ m₂.metadata.name = .text "n" := by
  let a : CommandLine.Arguments := { output := some "x/out.json" }
  have hp : outputPath wholeDisk {} a.output = revealingOutput := rfl
  have hparse : CommandLine.parse ["-o", "x/out.json"] = .ok a :=
    parse_output ⟨"x/out.json", by decide⟩
  have henters : Enters danglingDisk a wholeDisk := ⟨by decide, by cbv, by cbv⟩
  have hconfig : loadConfig danglingDisk wholeDisk {} (debugOf a) = .ok {} := by cbv
  have hclear := danglingDisk_clear
  have hroom : danglingDisk.makeDirectories revealingOutput.parent = (revealedDisk, none) := by cbv
  have hmanifest : revealedDisk.find revealingOutput = .ok (["x".toList, "out.json".toList], none) := by cbv
  have hsummary : revealedDisk.find (summaryPath revealingOutput) = .ok (["x".toList, summaryName], none) := by cbv
  have habsent : danglingDisk.isThere (wholeDisk.child packageName) = false := by cbv
  obtain ⟨m₁, hm₁, hbytes₁⟩ := exists_survey_of_bare { micros := 0 } {} henters (by cbv) habsent
  obtain ⟨d', hgenerates⟩ := exists_generates henters hconfig hm₁ hbytes₁ ⟨by decide, by decide⟩ (hp.symm ▸ hroom) (hp.symm ▸ hmanifest) (hp.symm ▸ hsummary) (by decide)
  obtain ⟨mid, d₁, hdelivery⟩ := deliver_eq_ok.mp hgenerates.deliver
  rw [hp] at hdelivery
  obtain rfl : revealedDisk = mid := congrArg Prod.fst (hroom.symm.trans hdelivery.room)
  obtain ⟨places, hhidden, htargets⟩ := hdelivery.exists_hidden hclear.manifest hclear.summary
  obtain ⟨s₁, hfirst, rfl⟩ := hgenerates.exists_exec hparse (by decide)
  -- The second run finds neither settings nor patterns either, but it finds the package file.
  obtain ⟨es, htree⟩ := exists_hasTree_of_enters henters danglingDisk_isTree
  obtain ⟨es', htree'⟩ := exists_hasTree_of_enters (henters.again hhidden)
    (hhidden.writes.tree (hhidden.grows.tree danglingDisk_isTree))
  have hroot := htree'.resolved_root
  have howns {name : Text} (hname : name ∈ ownNames) :
      ∀ r ∈ places, danglingDisk.resolve (wholeDisk.child name) ≠ .ok ⟨['/'], r⟩ :=
    fun r hr => (htargets r hr).ne_own hclear htree hname
  have hsettings : s₁.disk.isThere (wholeDisk.child settingsName) = false :=
    isThere_again hhidden (howns (by decide)) htree'.direct.root_ne_link (by cbv)
  have hpatterns : s₁.disk.isThere (wholeDisk.child Ignore.fileName) = false :=
    isThere_again hhidden (howns (by decide)) htree'.direct.root_ne_link (by cbv)
  have hconfig' : loadConfig s₁.disk wholeDisk {} (debugOf a) = .ok {} := by
    rw [← hconfig]
    unfold loadConfig
    rw [readSettings_of_absent hsettings, readSettings_of_absent (d := danglingDisk) (by cbv)]
  have hentry : s₁.disk.entry (wholeDisk.child packageName) = .ok (.file (Text.toUtf8 namedPackage) 0) := by
    refine Disk.entry_eq_file_of_keeps hhidden.writes.here hhidden.writes.forth (fun ns content changed hns hlook => ?_)
      (show revealedDisk.entry (wholeDisk.child packageName) = _ by cbv)
    rw [Disk.resolve_of_keeps hhidden.here hhidden.grows.toKeeps] at hns
    exact (hhidden.writes.file ns (fun hmem => howns (by decide) ns hmem hns) content changed).mpr hlook
  have hpackage := read_namedPackage hentry
  obtain ⟨m₂, hm₂⟩ := exists_survey_of_absent { micros := 1 } {} hroot hpatterns
  have hmetadata₁ := metadata_of_absent henters.resolved habsent hgenerates.survey
  have hmetadata₂ := metadata_of_package hroot hpackage hm₂
  have hbytes : m₂.hasBytes = m₁.hasBytes := by
    unfold Manifest.hasBytes
    rw [hmetadata₁, hmetadata₂]
    cbv
  obtain ⟨mid', d₁', d'', hagain⟩ := hdelivery.exists_again m₂ hbytes { micros := 1 }
  have hgenerates' : Generates s₁.disk { micros := 1 } a wholeDisk {} m₂ d'' :=
    ⟨henters.again hhidden, hconfig', hm₂, hp.symm ▸ deliver_eq_ok.mpr ⟨mid', d₁', hagain⟩⟩
  obtain ⟨s₂, hsecond, rfl⟩ := hgenerates'.exists_exec hparse (by decide)
  refine ⟨hclear, s₁, s₂, m₁, m₂, ⟨hfirst, hsecond⟩, ?_, by rw [hmetadata₁]; rfl, ?_, by rw [hmetadata₂]; cbv⟩
  · exact hdelivery.delivered hclear.manifest hclear.summary (generatedAt_of_survey hgenerates.survey)
  · exact hagain.delivered (hclear.manifest.of_keeps hhidden.here_eq hhidden.keeps)
      (hclear.summary.of_keeps hhidden.here_eq hhidden.keeps) (generatedAt_of_survey hm₂)

end CodeManifest.Run
