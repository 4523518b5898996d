import CodeManifest.Proofs.Files.Keep
import CodeManifest.Proofs.Json.Written
import CodeManifest.Proofs.Project.Walk
import CodeManifest.Proofs.Run.Crash
import CodeManifest.Proofs.Schema.Scan

namespace CodeManifest

namespace Manifest

/-- Is every number finite that a manifest takes over from the project as it is? -/
structure IsFinite (m : Manifest) : Prop where
  name : m.metadata.name.isFinite = true
  version : m.metadata.version.isFinite = true
  description : m.metadata.description.isFinite = true
  defaults : ∀ r ∈ m.resources, ∀ c ∈ r.table.columns, c.2.default.isFinite = true

theorem isFinite_object {fields : List (Text × Value)} :
    (object fields).isFinite = true ↔ ∀ e ∈ fields, e.2.isFinite = true := by
  rw [object, Value.isFinite, Value.entriesFinite_iff, List.forall_mem_map]

theorem isFinite_list {α : Type} {f : α → Value} {xs : List α} :
    (Value.list (xs.map f)).isFinite = true ↔ ∀ x ∈ xs, (f x).isFinite = true := by
  rw [Value.isFinite, Value.areFinite_iff, List.forall_mem_map]

@[simp] theorem isFinite_texts (ts : List Text) : (texts ts).isFinite = true := by
  rw [texts, isFinite_list]
  simp [Value.isFinite]

@[simp] theorem isFinite_textOrNull (t : Option Text) : (textOrNull t).isFinite = true := by
  cases t <;> rfl

theorem isFinite_parameter (p : Tool.Parameter) : (parameter p).isFinite = true := by
  rw [parameter, isFinite_object]
  simp only [List.forall_mem_append, List.forall_mem_cons]
  refine ⟨⟨⟨rfl, rfl, by simp⟩, ?_⟩, ?_⟩
  · cases p.description <;> simp [optional, Value.isFinite]
  · cases p.values <;> simp [optional]

theorem isFinite_tool (t : Tool.Descriptor) : (tool t).isFinite = true := by
  rw [tool, isFinite_object]
  simp only [List.forall_mem_append, List.forall_mem_cons]
  refine ⟨⟨rfl, rfl, ?_, rfl, rfl, rfl, by simp⟩, ?_⟩
  · simp only [isFinite_object, List.forall_mem_cons, List.forall_mem_map]
    exact ⟨rfl, fun e _ => isFinite_parameter e.2, isFinite_texts _, by simp⟩
  · split <;> simp [optional]

theorem isFinite_column (c : Schema.Column) : (column c).isFinite = true ↔ c.default.isFinite = true := by
  rw [column, isFinite_object]
  cases hd : c.default <;> cases hl : c.length <;> simp [optional, Value.isFinite, ofNat]

theorem isFinite_foreignKey (k : Schema.ForeignKey) : (foreignKey k).isFinite = true := by
  rw [foreignKey, isFinite_object]
  simp [Value.isFinite]

theorem isFinite_resource (r : Schema.Resource) :
    (resource r).isFinite = true ↔ ∀ c ∈ r.table.columns, c.2.default.isFinite = true := by
  have hkeys : (Value.list (r.table.foreignKeys.map foreignKey)).isFinite = true :=
    isFinite_list.mpr fun k _ => isFinite_foreignKey k
  rw [resource]
  simp only [isFinite_object, List.forall_mem_cons, List.forall_mem_map, hkeys, isFinite_texts,
    isFinite_textOrNull, isFinite_column]
  simp [Value.isFinite]

theorem isFinite_describe (m : Project.Metadata) :
    (describe m).isFinite = true ↔ m.description.isFinite = true := by
  unfold describe
  cases h : m.description.isTruthy with
  | true => rfl
  | false =>
    simp only [Bool.false_eq_true, if_false, Value.isFinite_of_not_isTruthy h, iff_true]
    split <;> rfl

theorem isFinite_toValue {m : Manifest} (hsource : m.sourceFiles.isFinite = true)
    (hsql : m.sqlFiles.isFinite = true) : m.toValue.isFinite = true ↔ m.IsFinite := by
  have htools : (Value.list (m.tools.map tool)).isFinite = true := isFinite_list.mpr fun t _ => isFinite_tool t
  have hresources : (Value.list (m.resources.map resource)).isFinite = true ↔
      ∀ r ∈ m.resources, ∀ c ∈ r.table.columns, c.2.default.isFinite = true := by
    rw [isFinite_list]
    exact forall₂_congr fun r _ => isFinite_resource r
  have hnone : (Value.list []).isFinite = true := rfl
  rw [toValue]
  simp only [isFinite_object, List.forall_mem_cons, List.forall_mem_map, htools, hresources, hnone, hsource,
    hsql, isFinite_texts, isFinite_describe]
  constructor
  · rintro ⟨-, ⟨hname, hversion, hdescription, -⟩, -, hdefaults, -⟩
    exact ⟨hname, hversion, hdescription, hdefaults⟩
  · intro h
    exact ⟨rfl, ⟨h.name, h.version, h.description, trivial, rfl, by simp⟩, trivial, h.defaults, trivial,
      ⟨rfl, rfl, fun _ _ => rfl, by simp, by simp⟩, rfl, by simp⟩

theorem isDocument_toJson_iff {m : Manifest} (hsource : m.sourceFiles.isFinite = true)
    (hsql : m.sqlFiles.isFinite = true) : Json.IsDocument (m.toJson ++ ['\n']) ↔ m.IsFinite := by
  rw [← isFinite_toValue hsource hsql]
  exact Json.isDocument_write_iff (by simp [Json.IsBlanks, Json.isBlank])

end Manifest

namespace Run

open Files Log

variable {d : Disk} {root p : Path} {c : Project.Config} {m : Manifest} {s s₁ s₂ : Session}

/-- How many files there are is a number in every manifest. -/
theorem counts_of_analyze (h : exec (analyze root c) s = (.ok m, s₁)) :
    ∃ n k, m.sourceFiles = Manifest.ofNat n ∧ m.sqlFiles = Manifest.ofNat k := by
  unfold analyze at h
  obtain ⟨_, _, -, h⟩ := exists_of_exec_bind h
  obtain ⟨_, _, -, h⟩ := exists_of_exec_bind h
  obtain ⟨sources, _, -, h⟩ := exists_of_exec_bind h
  obtain ⟨_, _, -, h⟩ := exists_of_exec_bind h
  obtain ⟨sqlFiles, _, -, h⟩ := exists_of_exec_bind h
  obtain ⟨_, _, -, h⟩ := exists_of_exec_bind h
  obtain ⟨_, _, -, h⟩ := exists_of_exec_bind h
  obtain ⟨⟨metadata, records⟩, _, -, h⟩ := exists_of_exec_bind h
  obtain ⟨_, _, -, h⟩ := exists_of_exec_bind h
  obtain ⟨_, _, -, h⟩ := exists_of_exec_bind h
  cases h
  exact ⟨sources.files.length, sqlFiles.files.length, rfl, rfl⟩

/-- A manifest that was written is read, up to the report of it. -/
theorem exists_of_writeManifest (h : exec (writeManifest p m) s = (.ok (), s₁)) :
    ∃ s' : Session, s'.disk.read p = .ok (Text.toUtf8 (m.toJson ++ ['\n']), s'.now.micros) ∧
      s₁ = s'.report ⟨"manifest", .info, "MCP manifest written to ".toList ++ p.render⟩ := by
  unfold writeManifest at h
  obtain ⟨_, s', hroom, h⟩ := exists_of_exec_bind h
  obtain ⟨_, s'', hwrite, h⟩ := exists_of_exec_bind h
  rw [exec_write] at hwrite
  split at hwrite
  · cases hwrite
  · split at hwrite
    · rename_i d hd
      cases hwrite
      cases h
      exact ⟨_, Disk.read_of_write hd, rfl⟩
    · cases hwrite

theorem read_of_writeManifest (hs : s.IsQuiet) (h : exec (writeManifest p m) s = (.ok (), s₁)) :
    ∃ changed, s₁.disk.read p = .ok (Text.toUtf8 (m.toJson ++ ['\n']), changed) := by
  obtain ⟨s', hread, rfl⟩ := exists_of_writeManifest h
  obtain ⟨s'', hexec, hstill, -⟩ := leaves_writeManifest hs p m
  obtain ⟨-, rfl⟩ := Prod.mk.inj (hexec.symm.trans h)
  have hquiet : s'.IsQuiet := hstill.quiet hs
  rw [disk_report hquiet]
  exact ⟨_, hread⟩

/-- The tables of a manifest are those of the SQL files that are found. -/
theorem resources_of_survey {now : Instant} {found : Project.Found} {scanner : Schema.Scanner}
    (hfound : Project.findSql d root c.ignorePatterns = .ok found)
    (hscanner : Schema.Scanner.ofRoot d root c.dialectNames = .ok scanner) (h : survey d now root c = .ok m) :
    m.resources = found.files.flatMap fun p => scanner.resourcesOf d (root.join p).render := by
  unfold survey at h
  obtain ⟨sources, -, h⟩ := exists_of_bind_eq_ok h
  obtain ⟨sqlFiles, hsql, h⟩ := exists_of_bind_eq_ok h
  obtain ⟨metadata, -, h⟩ := exists_of_bind_eq_ok h
  obtain rfl : found = sqlFiles := Except.ok.inj (hfound.symm.trans hsql)
  cases h
  have hfiles := Schema.scan_resources d scanner (found.files.map fun p => (root.join p).render)
  rw [List.flatMap_map] at hfiles
  rw [← hfiles]
  unfold Pipeline.run Pipeline.State.run Pipeline.start Pipeline.Lane.drain
  simp only [List.foldl_nil, hscanner]
  rfl

/-- A project without patterns of its own gets a manifest where there is room for one, and nothing yet. -/
theorem exists_written {ns : List Text} (now : Instant) (c : Project.Config) (hroot : d.resolved root = .ok root)
    (hlist : d.isThere (root.child Project.Ignore.fileName) = false) (hnull : p.hasNull = false)
    (hroom : roomFor d p = (.ok (), d)) (hfind : d.find p = .ok (ns, none)) :
    ∃ m s₁ s₂, survey d now root c = .ok m ∧ exec (analyze root c) { disk := d, now } = (.ok m, s₁) ∧
      exec (writeManifest p m) s₁ = (.ok (), s₂) ∧ s₁.IsQuiet := by
  obtain ⟨m, hm⟩ := exists_survey_of_absent now c hroot hlist
  have hquiet : ({ disk := d, now } : Session).IsQuiet := by
    intro h hh
    cases hh
  obtain ⟨s₁, hanalyze, hstill, hdisk⟩ := leaves_analyze hquiet root c
  have hdisk : s₁.disk = d := hdisk
  have hdeposit (t : Text) : (deposit d s₁.now "manifest" p t).1 = .ok () := by
    unfold deposit Disk.write Disk.update
    rw [hnull, hfind]
    rfl
  obtain ⟨s₂, hwrite, -, -⟩ := leaves_writeManifest (hstill.quiet hquiet) p m
  rw [hdisk] at hwrite
  simp only [depositManifest, hroom, andThen, hdeposit] at hwrite
  rw [hm] at hanalyze
  exact ⟨m, s₁, s₂, hm, hanalyze, hwrite, hstill.quiet hquiet⟩

/-- Whatever a project holds, the text that is put in the file of its manifest is a document exactly where all
numbers are finite that the manifest takes over: those in the name, the version and the description of the
project, and the default values of its columns. -/
theorem manifest_isDocument_iff (hanalyze : exec (analyze root c) s = (.ok m, s₁))
    (hwrite : exec (writeManifest p m) s₁ = (.ok (), s₂)) :
    ∃ (s' : Session) (t : Text), s'.disk.read p = .ok (Text.toUtf8 t, s'.now.micros) ∧
      s₂ = s'.report ⟨"manifest", .info, "MCP manifest written to ".toList ++ p.render⟩ ∧
      (Json.IsDocument t ↔ m.IsFinite) := by
  obtain ⟨n, k, hsource, hsql⟩ := counts_of_analyze hanalyze
  obtain ⟨s', hread, hs⟩ := exists_of_writeManifest hwrite
  refine ⟨s', _, hread, hs, Manifest.isDocument_toJson_iff ?_ ?_⟩
  · rw [hsource]
    rfl
  · rw [hsql]
    rfl

/-- The root of a disk, taken as a project. -/
def top : Path := ⟨['/'], []⟩

/-- Where its manifest goes. -/
def topOutput : Path := ⟨['/'], ["out.json"]⟩

/-- A package file with a number in it. -/
def numberedPackage : Text := "\x7b\"name\": \"shop\", \"version\": 2\x7d"

/-- A table with a default value. -/
def pricedText : Text := "CREATE TABLE item (price REAL DEFAULT 0.5);"

def pricedFiles : List (Text × Entry) :=
  [("item.sql", .file (Text.toUtf8 pricedText) 0), ("package.json", .file (Text.toUtf8 numberedPackage) 0)]

def pricedDisk : Disk := { root := .directory pricedFiles }

theorem pricedDisk_resolved : pricedDisk.resolved top = .ok top := by cbv

theorem pricedDisk_hasTree : Project.Place.HasTree ⟨pricedDisk, top⟩ pricedFiles := by
  have htree : pricedDisk.root.IsTree := by
    refine .directory pricedFiles (by decide) fun e he => ?_
    simp only [pricedFiles, List.mem_cons, List.not_mem_nil, or_false] at he
    rcases he with rfl | rfl
    · exact .file _ _
    · exact .file _ _
  exact .of_resolved htree pricedDisk_resolved (by cbv)

theorem pricedFiles_at? {above : List Text} {name : Text} {e : Entry}
    (h : Entry.at? (.directory pricedFiles) (above ++ [name]) = some e) : above = [] ∧ (name, e) ∈ pricedFiles := by
  cases above with
  | nil =>
    refine ⟨rfl, ?_⟩
    obtain ⟨c, hc, hbelow⟩ := Option.bind_eq_some_iff.mp h
    obtain rfl := Option.some.inj hbelow
    exact Keyed.mem_of_get? hc
  | cons n ns =>
    obtain ⟨c, hc, hbelow⟩ := Option.bind_eq_some_iff.mp h
    have hmem := Keyed.mem_of_get? (show Keyed.get? n pricedFiles = some c from hc)
    simp only [pricedFiles, List.mem_cons, Prod.mk.injEq, List.not_mem_nil, or_false] at hmem
    rcases hmem with ⟨-, rfl⟩ | ⟨-, rfl⟩
    · cases ns <;> cases hbelow
    · cases ns <;> cases hbelow

/-- The one SQL file is found. -/
theorem pricedDisk_found : ∃ found, Project.findSql pricedDisk top [] = .ok found ∧
    found.files = [{ parts := ["item.sql"] }] := by
  have hown : Project.Ignore.HasText pricedDisk top [] := by
    have habsent : pricedDisk.isThere (top.child Project.Ignore.fileName) = false := by cbv
    unfold Project.Ignore.HasText
    rw [habsent, if_neg Bool.false_ne_true]
  obtain ⟨vs, hvs, hmem, hcomes⟩ := Project.exists_walk pricedDisk_resolved pricedDisk_hasTree hown [".sql"] []
    Project.excludedSqlDirectories []
  have hnodup := Project.Comes.nodup hcomes
  have hfound : ∀ names, names ∈ vs.filterMap Project.Visit.file? ↔ names = ["item.sql".toList] := by
    intro names
    rw [hmem]
    constructor
    · rintro ⟨above, name, rfl, h⟩
      obtain ⟨e, hat, -⟩ := h.reached
      obtain ⟨rfl, hmem⟩ := pricedFiles_at? hat
      have hextension := h.extension
      simp only [pricedFiles, List.mem_cons, Prod.mk.injEq, List.not_mem_nil, or_false] at hmem
      rcases hmem with ⟨rfl, -⟩ | ⟨rfl, -⟩
      · rfl
      · revert hextension
        decide
    · rintro rfl
      have htakes : Project.Wanted.takes ⟨[".sql".toList].map Text.lower,
          Project.Ignore.standard ++ [] ++ Project.Ignore.ofText [] ++ Project.excludedSqlDirectories, []⟩ []
          "item.sql" = true := by decide
      obtain ⟨hvisible, hextension, hexcluded, hunmatched⟩ := Project.takes_eq_true.mp htakes
      have hat : Entry.at? (.directory pricedFiles) [("item.sql" : Text)] =
          some (.file (Text.toUtf8 pricedText) 0) :=
        rfl
      have hentry := pricedDisk_hasTree.entry_path hat (fun t => Entry.noConfusion) (by decide)
      exact ⟨[], "item.sql", rfl, ⟨_, hat, rfl⟩, fun c hc => absurd hc List.not_mem_nil, hvisible, hextension,
        hexcluded, hunmatched, _, 0, hentry, by decide⟩
  have hperm : (vs.filterMap Project.Visit.file?).Perm [["item.sql".toList]] :=
    (List.perm_ext_iff_of_nodup hnodup (List.nodup_singleton _)).mpr fun names =>
      (hfound names).trans List.mem_singleton.symm
  refine ⟨_, Project.findSql_of_walk hvs, ?_⟩
  unfold Project.Found.ofVisits Project.Found.inWalkOrder
  dsimp only
  rw [List.perm_singleton.mp hperm]
  exact List.mergeSort_singleton _

theorem pricedText_parsed : (Schema.firstAccepting Sql.Statement.parse pricedText Sql.Dialect.all).2.bind
    (fun p => (Schema.tables p.dialect p.statements).toOption.map fun ts =>
      (ts.any (·.columns.any (·.2.default.isTruthy)), ts.all (·.columns.all (·.2.default.isFinite)))) =
    some (true, true) := by
  decide +kernel

/-- There is a default value among the columns, and all of them are finite. -/
theorem pricedDisk_defaults {now : Instant} (h : survey pricedDisk now top {} = .ok m) :
    (∃ r ∈ m.resources, ∃ c ∈ r.table.columns, c.2.default.isTruthy = true) ∧
      ∀ r ∈ m.resources, ∀ c ∈ r.table.columns, c.2.default.isFinite = true := by
  obtain ⟨found, hfound, hfiles⟩ := pricedDisk_found
  let scanner : Schema.Scanner := ⟨top, Sql.Dialect.all⟩
  have hscanner : Schema.Scanner.ofRoot pricedDisk top ({} : Project.Config).dialectNames = .ok scanner := by
    have hnames : ({} : Project.Config).dialectNames = Sql.Dialect.all.map Sql.Dialect.name := by decide
    have hdialects : Schema.dialectsOf (Sql.Dialect.all.map Sql.Dialect.name) = .ok Sql.Dialect.all :=
      Schema.dialectsOf_map_name (by decide)
    rw [← hnames] at hdialects
    rw [Schema.Scanner.ofRoot, pricedDisk_resolved]
    simp only [bind, Except.bind, hdialects]
    rfl
  have hresources := resources_of_survey (c := {}) hfound hscanner h
  obtain ⟨p, hp, htables⟩ := Option.bind_eq_some_iff.mp pricedText_parsed
  obtain ⟨ts, hts, hdefaults⟩ := Option.map_eq_some_iff.mp htables
  obtain ⟨hsome, hall⟩ := Prod.mk.inj hdefaults
  have hok : Schema.tables p.dialect p.statements = .ok ts := by
    cases htables : Schema.tables p.dialect p.statements with
    | error u =>
      rw [htables] at hts
      cases hts
    | ok us =>
      rw [htables] at hts
      obtain rfl := Option.some.inj hts
      rfl
  have hcontents : scanner.contents pricedDisk "/item.sql" = .ok ("item.sql", pricedText, { micros := 0 }) := by
    have hname : pricedDisk.nameWithin scanner.root (.ofText "/item.sql") = .ok "item.sql".toList := by cbv
    have hread : pricedDisk.read (scanner.root.join (.ofText "/item.sql")) = .ok (Text.toUtf8 pricedText, 0) := by cbv
    have hutf8 : Text.unifyLineEnds (Text.ofUtf8 (Text.toUtf8 pricedText).toList) = pricedText := by decide +kernel
    rw [Schema.Scanner.contents, hname, hread]
    simp only [Except.bind, bind, pure, Except.pure, hutf8]
  have hreading := Schema.Scanner.reading_of_contents hcontents (by decide +kernel) hp
  have hof : m.resources = ts.map fun t => ⟨t, "item.sql".toList, p.dialect.name, some { micros := 0 }⟩ := by
    have hpath : (top.join { parts := ["item.sql"] }).render = "/item.sql".toList := by decide
    rw [hresources, hfiles, List.flatMap_singleton, hpath, Schema.Scanner.resourcesOf, hreading,
      Schema.outcome_of_tables hok]
  rw [hof]
  constructor
  · obtain ⟨t, ht, hc⟩ := List.any_eq_true.mp hsome
    obtain ⟨c, hc, hdefault⟩ := List.any_eq_true.mp hc
    exact ⟨_, List.mem_map_of_mem ht, c, hc, hdefault⟩
  · intro r hr c hc
    obtain ⟨t, ht, rfl⟩ := List.mem_map.mp hr
    exact List.all_eq_true.mp (List.all_eq_true.mp hall t ht) c hc

/-- Of a project with a number in its package file, and a default value. -/
theorem manifest_isDocument_iff_priced :
    ∃ (m : Manifest) (s₁ s₂ s' : Session) (t : Text),
      exec (analyze top {}) { disk := pricedDisk, now := { micros := 0 } } = (.ok m, s₁) ∧
      exec (writeManifest topOutput m) s₁ = (.ok (), s₂) ∧
      m.metadata.version = .int 2 ∧ (∃ r ∈ m.resources, ∃ c ∈ r.table.columns, c.2.default.isTruthy = true) ∧
      s'.disk.read topOutput = .ok (Text.toUtf8 t, s'.now.micros) ∧
      s₂ = s'.report ⟨"manifest", .info, "MCP manifest written to ".toList ++ topOutput.render⟩ ∧
      Json.IsDocument t := by
  have hentry : pricedDisk.entry (top.child Project.packageName) = .ok (.file (Text.toUtf8 numberedPackage) 0) := by cbv
  have hpackage : Project.Package.read pricedDisk (top.child Project.packageName) =
      .ok (.map [(.text "name", .text "shop"), (.text "version", .int 2)]) :=
    read_package hentry (by decide +kernel) (by cbv)
  obtain ⟨m, s₁, s₂, hm, hanalyze, hwrite, -⟩ :=
    exists_written { micros := 0 } {} pricedDisk_resolved (by cbv) (by decide) (p := topOutput) (by cbv) (by cbv)
  obtain ⟨s', t, hread, hs₂, hdocument⟩ := manifest_isDocument_iff hanalyze hwrite
  obtain ⟨hsome, hdefaults⟩ := pricedDisk_defaults hm
  have hmetadata : m.metadata = { name := .text "shop", version := .int 2 } := by
    rw [metadata_of_package pricedDisk_resolved hpackage hm]
    cbv
  refine ⟨m, s₁, s₂, s', t, hanalyze, hwrite, by rw [hmetadata], hsome, hread, hs₂, hdocument.mpr ?_⟩
  exact ⟨by rw [hmetadata]; rfl, by rw [hmetadata]; rfl, by rw [hmetadata]; rfl, hdefaults⟩

/-- A package file that is a document itself, with a number in it that is too large. -/
def largeVersion : Text := "\x7b\"version\": 1e999\x7d"

def largeVersionDisk : Disk := { root := .directory [("package.json", .file (Text.toUtf8 largeVersion) 0)] }

/-- The number is taken over, and written as one that stands in no document. -/
theorem largeVersion_not_isDocument :
    ∃ (m : Manifest) (s₁ s₂ : Session) (t : Text) (changed : Int),
      exec (analyze top {}) { disk := largeVersionDisk, now := { micros := 0 } } = (.ok m, s₁) ∧
      exec (writeManifest topOutput m) s₁ = (.ok (), s₂) ∧
      s₂.disk.read topOutput = .ok (Text.toUtf8 t, changed) ∧ ¬ Json.IsDocument t := by
  have hroot : largeVersionDisk.resolved top = .ok top := by cbv
  have hentry : largeVersionDisk.entry (top.child Project.packageName) = .ok (.file (Text.toUtf8 largeVersion) 0) := by
    cbv
  have hpackage : Project.Package.read largeVersionDisk (top.child Project.packageName) =
      .ok (.map [(.text "version", .float (.infinite false))]) :=
    read_package hentry (by decide +kernel) (by cbv)
  obtain ⟨m, s₁, s₂, hm, hanalyze, hwrite, hquiet⟩ :=
    exists_written { micros := 0 } {} hroot (by cbv) (by decide) (p := topOutput) (by cbv) (by cbv)
  obtain ⟨changed, hwritten⟩ := read_of_writeManifest hquiet hwrite
  refine ⟨m, s₁, s₂, _, changed, hanalyze, hwrite, hwritten, ?_⟩
  obtain ⟨n, k, hsource, hsql⟩ := counts_of_analyze hanalyze
  rw [Manifest.isDocument_toJson_iff (by rw [hsource]; rfl) (by rw [hsql]; rfl)]
  intro hfinite
  have hversion : m.metadata.version = .float (.infinite false) := by
    rw [metadata_of_package hroot hpackage hm]
    rfl
  have hnot := hfinite.version
  rw [hversion] at hnot
  cases hnot

end Run

end CodeManifest
