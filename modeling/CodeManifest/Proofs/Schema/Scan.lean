import CodeManifest.Proofs.Schema.Fallback
import CodeManifest.Proofs.Schema.Tables
import Mathlib

namespace CodeManifest.Schema

open Files Sql

/-- Can a schema name the type? -/
def isTitled : DataType → Bool
  | .span _ | .object _ => false
  | _ => true

/-- Can the type of the column be named? A column without a name does not count. -/
def isTitledElement : TableElement → Bool
  | .column c => c.name.isEmpty || c.type.all isTitled
  | _ => true

/-- Can the types of all columns be named? A table without a name does not count. -/
def isTitledStatement : Statement → Bool
  | .table c => c.name.isEmpty || c.elements.all isTitledElement
  | _ => true

theorem exists_title {d : Dialect} {t : DataType} :
    (∃ n, t.title d = .ok n) ↔ isTitled t = true := by
  cases t <;> simp [DataType.title, isTitled]

theorem exists_ofDef {d : Dialect} {c : ColumnDef} :
    (∃ column, Column.ofDef d c = .ok column) ↔ c.type.all isTitled = true := by
  unfold Column.ofDef
  cases c.type with
  | none => exact ⟨fun _ => rfl, fun _ => ⟨_, rfl⟩⟩
  | some t => exact exists_bind_pure.trans exists_title

theorem exists_add {d : Dialect} {s : Draft} {e : TableElement} :
    (∃ s', s.add d e = .ok s') ↔ isTitledElement e = true := by
  cases e with
  | column c =>
    unfold Draft.add isTitledElement
    dsimp only
    by_cases hn : c.name.isEmpty
    · rw [if_pos hn, hn]
      exact ⟨fun _ => rfl, fun _ => ⟨_, rfl⟩⟩
    · rw [if_neg hn, Bool.or_eq_true, or_iff_right hn, ← exists_ofDef (d := d)]
      exact exists_bind_pure
  | named n cs => exact ⟨fun _ => rfl, fun _ => ⟨_, rfl⟩⟩
  | constraint c => exact ⟨fun _ => rfl, fun _ => ⟨_, rfl⟩⟩

theorem exists_ofCreate {d : Dialect} {c : CreateTable} :
    (∃ o, Table.ofCreate d c = .ok o) ↔ isTitledStatement (.table c) = true := by
  unfold Table.ofCreate isTitledStatement
  dsimp only
  by_cases hn : c.name.isEmpty
  · rw [if_pos hn, hn]
    exact ⟨fun _ => rfl, fun _ => ⟨_, rfl⟩⟩
  · rw [if_neg hn, Bool.or_eq_true, or_iff_right hn, List.all_eq_true]
    have hadd (s : Draft) (e : TableElement) :
        (∃ s', Draft.add d s e = .ok s') ↔ isTitledElement e = true := exists_add
    exact exists_bind_pure.trans (exists_foldlM_iff hadd)

/-- The tables of a file can be told exactly if all types in it can be named. -/
theorem exists_tables {d : Dialect} {sts : List Statement} :
    (∃ ts, tables d sts = .ok ts) ↔ sts.all isTitledStatement = true := by
  have hbuildable : (∃ ts, tables d sts = .ok ts) ↔ Buildable d sts :=
    ⟨fun ⟨ts, h⟩ => buildable_of_tables h, fun h => ⟨_, tables_of_buildable h⟩⟩
  rw [hbuildable, List.all_eq_true]
  constructor
  · intro h st hst
    cases st with
    | table c => exact exists_ofCreate.mp (h c hst)
    | index i => rfl
    | command c => rfl
    | other => rfl
  · intro h c hc
    exact exists_ofCreate.mpr (h _ hc)

/-- What a scanner reads a file as: nothing but blanks, statements of the first dialect that takes its
text, or no schema at all, because it cannot be read or no dialect takes it. -/
inductive Reading where
  | blank
  | accepted (path : Text) (modified : Instant) (parsed : Parsed)
  | refused (e : Failure)

/-- What comes of a file that is read so. -/
def Reading.outcome : Reading → Except Failure (List Resource)
  | blank => .ok []
  | accepted path modified p =>
    match tables p.dialect p.statements with
    | .ok ts => .ok (ts.map fun t => ⟨t, path, p.dialect.name, some modified⟩)
    | .error u => .error (.untitled u)
  | refused e => .error e

namespace Scanner

/-- The name of a file in the project, its text, and when it was changed, if it can be read. -/
def contents (d : Disk) (s : Scanner) (file : Text) : Except Failure (Text × Text × Instant) := do
  let path ← d.nameWithin s.root (.ofText file)
  match d.read (s.root.join (.ofText file)) with
  | .ok (content, changed) =>
    return (path, Text.unifyLineEnds (Text.ofUtf8 content.toList), { micros := changed })
  | .error e => throw (.file e)

/-- What a text is read as. -/
def readingText (s : Scanner) (path t : Text) (modified : Instant) : Reading :=
  if (Text.trim t).isEmpty then .blank
  else match parseWithFallback Statement.parse s.dialects t path with
    | .ok p => .accepted path modified p
    | .error f => .refused (.fault f)

def reading (d : Disk) (s : Scanner) (file : Text) : Reading :=
  match s.contents d file with
  | .error e => .refused e
  | .ok (path, t, modified) => s.readingText path t modified

def resourcesOf (d : Disk) (s : Scanner) (file : Text) : List Resource :=
  match (s.reading d file).outcome with
  | .ok rs => rs
  | .error _ => []

/-- The one warning about a file that fails. -/
def warning? (d : Disk) (s : Scanner) (file : Text) : Option Log.Record :=
  match (s.reading d file).outcome with
  | .ok _ => none
  | .error e => some (failure file e)

/-- A text that is not blank is read in the first dialect that takes it. -/
theorem reading_of_contents {d : Disk} {s : Scanner} {file path t : Text} {modified : Instant} {p : Parsed}
    (h : s.contents d file = .ok (path, t, modified)) (ht : (Text.trim t).isEmpty = false)
    (hp : (firstAccepting Statement.parse t s.dialects).2 = some p) :
    s.reading d file = .accepted path modified p := by
  have hok : parseWithFallback Statement.parse s.dialects t path = .ok p := parseWithFallback_eq_ok.mpr hp
  rw [reading, h]
  dsimp only
  rw [readingText, ht, hok]
  rfl

theorem scanText_outcome (s : Scanner) (path t : Text) (modified : Instant) :
    (s.scanText path t modified).outcome = (s.readingText path t modified).outcome := by
  by_cases h : (Text.trim t).isEmpty
  · rw [readingText, scanText, if_pos h, if_pos h]
    rfl
  · rw [readingText, if_neg h, outcome_scanText s path t modified (Bool.not_eq_true _ ▸ h)]
    cases parseWithFallback Statement.parse s.dialects t path with
    | error f => rfl
    | ok p =>
      dsimp only [Reading.outcome]
      cases tables p.dialect p.statements <;> rfl

theorem scanFile_outcome (d : Disk) (s : Scanner) (file : Text) :
    (s.scanFile d file).outcome = (s.reading d file).outcome := by
  unfold scanFile reading contents
  dsimp only
  cases d.nameWithin s.root (.ofText file) with
  | error e => rfl
  | ok path =>
    cases d.read (s.root.join (.ofText file)) with
    | error e => rfl
    | ok found => exact scanText_outcome s path _ _

/-- Nothing that is reported on the way through a file is a warning. -/
theorem level_of_mem_scanText {s : Scanner} {file t : Text} {modified : Instant} {r : Log.Record}
    (h : r ∈ (s.scanText file t modified).records) : r.level = .debug := by
  have htried {r : Log.Record} (hr : r ∈ ((firstAccepting Statement.parse t s.dialects).1.map
      fun e => rejection file e.1 e.2)) : r.level = .debug := by
    obtain ⟨e, -, rfl⟩ := List.mem_map.mp hr
    rfl
  unfold scanText at h
  by_cases hblank : (Text.trim t).isEmpty
  · rw [if_pos hblank] at h
    rw [List.mem_singleton.mp h]
    rfl
  · rw [if_neg hblank] at h
    dsimp only at h
    cases hfound : (firstAccepting Statement.parse t s.dialects).2 with
    | none =>
      rw [hfound] at h
      exact htried h
    | some p =>
      rw [hfound] at h
      dsimp only at h
      cases htables : tables p.dialect p.statements with
      | error u =>
        rw [htables] at h
        exact htried h
      | ok ts =>
        rw [htables] at h
        rcases List.mem_append.mp h with h | h
        · exact htried h
        · rw [List.mem_singleton.mp h]
          rfl

theorem level_of_mem_scanFile {d : Disk} {s : Scanner} {file : Text} {r : Log.Record}
    (h : r ∈ (s.scanFile d file).records) : r.level = .debug := by
  unfold scanFile at h
  dsimp only at h
  cases hn : d.nameWithin s.root (.ofText file) with
  | error e =>
    rw [hn] at h
    cases h
  | ok path =>
    rw [hn] at h
    dsimp only at h
    cases hr : d.read (s.root.join (.ofText file)) with
    | error e =>
      rw [hr] at h
      rw [List.mem_singleton.mp h]
      rfl
    | ok found =>
      rw [hr] at h
      rcases List.mem_cons.mp h with rfl | h
      · rfl
      · exact level_of_mem_scanText h

theorem failure_level (file : Text) (e : Failure) : (failure file e).level = .warning := by
  unfold failure
  split <;> rfl

end Scanner

/-- The warnings among some reports. -/
def warnings (rs : List Log.Record) : List Log.Record := rs.filter (·.level = .warning)

theorem warnings_append (rs qs : List Log.Record) : warnings (rs ++ qs) = warnings rs ++ warnings qs :=
  List.filter_append _ _

theorem warnings_scanFile (d : Disk) (s : Scanner) (file : Text) :
    warnings (s.scanFile d file).records = [] := by
  unfold warnings
  rw [List.filter_eq_nil_iff]
  intro r hr
  simp [Scanner.level_of_mem_scanFile hr]

theorem warnings_failure (file : Text) (e : Failure) :
    warnings [Scanner.failure file e] = [Scanner.failure file e] := by
  simp [warnings, Scanner.failure_level]

namespace Progress

theorem step_scanner (d : Disk) (p : Progress) (file : Text) : (p.step d file).scanner = p.scanner := by
  unfold step
  dsimp only
  cases (p.scanner.scanFile d file).outcome <;> rfl

theorem step_resources (d : Disk) (p : Progress) (file : Text) :
    (p.step d file).resources = p.resources ++ p.scanner.resourcesOf d file := by
  unfold step Scanner.resourcesOf
  dsimp only
  rw [← p.scanner.scanFile_outcome d file]
  cases (p.scanner.scanFile d file).outcome with
  | error e => exact (List.append_nil _).symm
  | ok rs => rfl

theorem step_warnings (d : Disk) (p : Progress) (file : Text) :
    warnings (p.step d file).records =
      warnings p.records ++ (p.scanner.warning? d file).toList := by
  have hquiet := warnings_scanFile d p.scanner file
  unfold step Scanner.warning?
  dsimp only
  rw [← p.scanner.scanFile_outcome d file]
  cases (p.scanner.scanFile d file).outcome with
  | error e =>
    dsimp only
    rw [warnings_append, warnings_append, hquiet, List.append_nil, warnings_failure]
    rfl
  | ok rs =>
    dsimp only
    rw [warnings_append, hquiet]
    rfl

theorem run_resources (d : Disk) (p : Progress) (files : List Text) :
    (files.foldl (step d) p).resources = p.resources ++ files.flatMap (p.scanner.resourcesOf d) := by
  -- No step changes the scanner, so what a file adds does not depend on the files before it.
  induction files generalizing p with
  | nil => simp
  | cons file files ih =>
    rw [List.foldl_cons, ih, step_scanner, step_resources, List.append_assoc, List.flatMap_cons]

theorem run_warnings (d : Disk) (p : Progress) (files : List Text) :
    warnings (files.foldl (step d) p).records =
      warnings p.records ++ files.filterMap (p.scanner.warning? d) := by
  induction files generalizing p with
  | nil => simp
  | cons file files ih =>
    rw [List.foldl_cons, ih, step_scanner, step_warnings, List.append_assoc]
    cases h : p.scanner.warning? d file with
    | none => rw [List.filterMap_cons_none h]; rfl
    | some r => rw [List.filterMap_cons_some h]; rfl

end Progress

theorem scan_resources (d : Disk) (s : Scanner) (files : List Text) :
    (scan d s files).resources = files.flatMap (s.resourcesOf d) :=
  Progress.run_resources d { scanner := s } files

theorem scan_warnings (d : Disk) (s : Scanner) (files : List Text) :
    warnings (scan d s files).records = files.filterMap (s.warning? d) := by
  have hrun := Progress.run_warnings d { scanner := s } files
  have hend (t : Text) : warnings [Scanner.report .info t] = [] := rfl
  unfold scan Progress.finish
  rw [warnings_append, hrun, hend, List.append_nil]
  rfl

/-- What a file adds to a scan fits what it is read as: nothing if it is blank, a resource for each of its
tables if a dialect takes it, and one warning if it is refused. -/
def IsSettled (d : Disk) (s : Scanner) (file : Text) : Prop :=
  let found := (scan d s [file]).resources
  let warned := warnings (scan d s [file]).records
  match s.reading d file with
  | .blank => found = [] ∧ warned = []
  | .accepted path modified p => ∃ ts, tables p.dialect p.statements = .ok ts ∧
      found = ts.map (fun t => ⟨t, path, p.dialect.name, some modified⟩) ∧ warned = []
  | .refused _ => found = [] ∧ ∃ r, warned = [r]

section

variable {d : Disk} {s : Scanner} {file : Text}

theorem scan_of_ok {rs : List Resource} (h : (s.reading d file).outcome = .ok rs) :
    (scan d s [file]).resources = rs ∧ warnings (scan d s [file]).records = [] := by
  rw [scan_resources, scan_warnings]
  simp [Scanner.resourcesOf, Scanner.warning?, h]

theorem scan_of_error {e : Failure} (h : (s.reading d file).outcome = .error e) :
    (scan d s [file]).resources = [] ∧
      warnings (scan d s [file]).records = [Scanner.failure file e] := by
  rw [scan_resources, scan_warnings]
  simp [Scanner.resourcesOf, Scanner.warning?, h]

theorem outcome_of_tables {path : Text} {modified : Instant} {p : Parsed} {ts : List Table}
    (h : tables p.dialect p.statements = .ok ts) :
    (Reading.accepted path modified p).outcome =
      .ok (ts.map fun t => ⟨t, path, p.dialect.name, some modified⟩) := by
  rw [Reading.outcome, h]

theorem exists_outcome_of_not_titled {path : Text} {modified : Instant} {p : Parsed}
    (h : ¬ p.statements.all isTitledStatement = true) :
    ∃ u, (Reading.accepted path modified p).outcome = .error (.untitled u) := by
  cases ht : tables p.dialect p.statements with
  | ok ts => exact absurd (exists_tables.mp ⟨ts, ht⟩) h
  | error u => exact ⟨u, by rw [Reading.outcome, ht]⟩

/-- Only a type without a title leaves a file unsettled. -/
theorem isSettled_iff :
    IsSettled d s file ↔ ∀ path modified p, s.reading d file = .accepted path modified p →
      p.statements.all isTitledStatement = true := by
  unfold IsSettled
  -- A file that no dialect takes is settled in any case: its failure is its outcome.
  cases hr : s.reading d file with
  | blank =>
    have hout : (s.reading d file).outcome = .ok [] := by rw [hr]; rfl
    refine iff_of_true (scan_of_ok hout) ?_
    intro path modified p h
    cases h
  | refused e =>
    have hout : (s.reading d file).outcome = .error e := by rw [hr]; rfl
    obtain ⟨hfound, hwarned⟩ := scan_of_error hout
    refine iff_of_true ⟨hfound, _, hwarned⟩ ?_
    intro path modified p h
    cases h
  | accepted path modified p =>
    constructor
    · rintro ⟨ts, hts, -⟩ path' modified' p' h
      cases h
      exact exists_tables.mp ⟨ts, hts⟩
    · intro h
      obtain ⟨ts, hts⟩ := exists_tables.mpr (h path modified p rfl)
      have hout : (s.reading d file).outcome =
          .ok (ts.map fun t => ⟨t, path, p.dialect.name, some modified⟩) := by
        rw [hr, outcome_of_tables hts]
      exact ⟨ts, hts, scan_of_ok hout⟩

theorem exists_error_of_not_isSettled (h : ¬ IsSettled d s file) :
    ∃ e, (s.reading d file).outcome = .error e := by
  rw [isSettled_iff] at h
  push Not at h
  obtain ⟨path, modified, p, hr, hp⟩ := h
  rw [hr]
  obtain ⟨u, hu⟩ := exists_outcome_of_not_titled hp
  exact ⟨_, hu⟩

end

/-- A scan of two lists finds what the scans of both find, and warns as both do. Each file is settled,
unless a dialect takes it and a type in it has no title: then it adds one warning and nothing else, like any
file that fails. Such a file changes nothing for the others. -/
theorem scan_settles (d : Disk) (s : Scanner) :
    (∀ xs ys, (scan d s (xs ++ ys)).resources = (scan d s xs).resources ++ (scan d s ys).resources ∧
      warnings (scan d s (xs ++ ys)).records =
        warnings (scan d s xs).records ++ warnings (scan d s ys).records) ∧
    (∀ file, IsSettled d s file ↔ ∀ path modified p, s.reading d file = .accepted path modified p →
      p.statements.all isTitledStatement = true) ∧
    (∀ file, ¬ IsSettled d s file → (scan d s [file]).resources = [] ∧
      ∃ r, warnings (scan d s [file]).records = [r]) ∧
    ∀ xs ys file e, (s.reading d file).outcome = .error e →
      (scan d s (xs ++ file :: ys)).resources = (scan d s (xs ++ ys)).resources ∧
      warnings (scan d s (xs ++ file :: ys)).records =
        warnings (scan d s xs).records ++ Scanner.failure file e :: warnings (scan d s ys).records := by
  refine ⟨?_, fun _ => isSettled_iff, ?_, ?_⟩
  · intro xs ys
    simp only [scan_resources, scan_warnings, List.flatMap_append, List.filterMap_append, and_self]
  · intro file h
    obtain ⟨e, he⟩ := exists_error_of_not_isSettled h
    obtain ⟨hfound, hwarned⟩ := scan_of_error he
    exact ⟨hfound, _, hwarned⟩
  · intro xs ys file e h
    have hnone : s.resourcesOf d file = [] := by simp only [Scanner.resourcesOf, h]
    have hwarned : s.warning? d file = some (Scanner.failure file e) := by
      simp only [Scanner.warning?, h]
    simp only [scan_resources, scan_warnings, List.flatMap_append, List.flatMap_cons, hnone,
      List.nil_append, List.filterMap_append, List.filterMap_cons_some hwarned, and_self]

/-- A definition that a dialect takes, of a table with a column without a title. -/
def spanText : Text := "CREATE TABLE t (a INTERVAL DAY);"

private theorem spanText_utf8 :
    Text.unifyLineEnds (Text.ofUtf8 (Text.toUtf8 spanText).toList) = spanText := by
  decide +kernel

private theorem spanText_parsed : (firstAccepting Statement.parse spanText Dialect.all).2.map
    (fun p => p.statements.all isTitledStatement) = some false := by
  decide +kernel

/-- A time span of one unit has no title, so a table with such a column is lost although the first dialect
takes its definition. -/
theorem span_unsettled :
    let d : Disk := { root := .directory [("a.sql", .file (Text.toUtf8 spanText) 0)] }
    ¬ IsSettled d ⟨⟨['/'], []⟩, Dialect.all⟩ "a.sql" := by
  intro d h
  let s : Scanner := ⟨⟨['/'], []⟩, Dialect.all⟩
  have hcontents : s.contents d "a.sql" = .ok ("a.sql".toList, spanText, { micros := 0 }) := by
    have hname : d.nameWithin s.root (.ofText "a.sql") = .ok "a.sql".toList := by cbv
    have hread : d.read (s.root.join (.ofText "a.sql")) = .ok (Text.toUtf8 spanText, 0) := by cbv
    rw [Scanner.contents, hname, hread]
    simp only [Except.bind, bind, pure, Except.pure, spanText_utf8]
  obtain ⟨p, hp, hfalse⟩ := Option.map_eq_some_iff.mp spanText_parsed
  have hreading := Scanner.reading_of_contents hcontents (by decide +kernel) hp
  have htrue := isSettled_iff.mp h _ _ p hreading
  rw [hfalse] at htrue
  cases htrue

end CodeManifest.Schema
