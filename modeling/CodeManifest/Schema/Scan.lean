import CodeManifest.Failure
import CodeManifest.Log
import CodeManifest.Schema.Fallback
import CodeManifest.Schema.Resource
import CodeManifest.Text.Blank

namespace CodeManifest.Schema

open Files Sql

/-- A scanner of a project, with the dialects in which files are tried. -/
structure Scanner where
  root : Path
  dialects : List Dialect

/-- What comes of a file: the tables in it or why there are none, and the reports on the way. -/
structure FileScan where
  records : List Log.Record := []
  outcome : Except Failure (List Resource)

namespace Scanner

/-- A scanner of the project below a path in dialects of the given names. -/
def ofRoot (d : Disk) (root : Path) (names : List Text) : Except Failure Scanner := do
  let root ← d.resolved root
  match dialectsOf names with
  | .ok dialects => return ⟨root, dialects⟩
  | .error f => throw (.fault f)

def report (level : Log.Level) (t : Text) : Log.Record := ⟨"schema.scanner", level, t⟩

/-- The report that a dialect does not take a file. -/
def rejection (file : Text) (d : Dialect) (r : Rejection) : Log.Record :=
  let reason : Text := match r.message? with
    | some m => ':' :: ' ' :: m
    | none => []
  report .debug ("  - ".toList ++ d.name ++ " rejected ".toList ++ file ++ reason)

/-- The tables that are declared in a text, in the first dialect that takes it. -/
def scanText (s : Scanner) (file t : Text) (modified : Instant) : FileScan :=
  if (Text.trim t).isEmpty then
    { records := [report .debug ("  - ".toList ++ file ++ " is empty, skipping".toList)]
      outcome := .ok [] }
  else
    let (rejected, found) := firstAccepting Statement.parse t s.dialects
    let tried := rejected.map fun e => rejection file e.1 e.2
    match found with
    | none => { records := tried, outcome := .error (.fault (noDialect s.dialects file)) }
    | some p =>
      match tables p.dialect p.statements with
      | .error u => { records := tried, outcome := .error (.untitled u) }
      | .ok ts =>
        let ended := report .debug ("  - ".toList ++ Text.ofNat ts.length ++ " tables from ".toList ++
          file ++ ' ' :: '(' :: p.dialect.name ++ [')'])
        { records := tried ++ [ended]
          outcome := .ok (ts.map fun t => ⟨t, file, p.dialect.name, some modified⟩) }

/-- The tables that are declared in a file. What is not UTF-8 in it does not matter. -/
def scanFile (d : Disk) (s : Scanner) (file : Text) : FileScan :=
  let p := Path.ofText file
  match d.nameWithin s.root p with
  | .error e => { outcome := .error e }
  | .ok path =>
    let begun := report .debug ("Processing SQL file: ".toList ++ path)
    match d.read (s.root.join p) with
    | .error e => { records := [begun], outcome := .error (.file e) }
    | .ok (content, changed) =>
      let r := s.scanText path (Text.unifyLineEnds (Text.ofUtf8 content.toList)) { micros := changed }
      { r with records := begun :: r.records }

/-- The one report of a file that fails. -/
def failure (file : Text) : Failure → Log.Record
  | .fault ⟨.schema, message, details⟩ =>
    let name := ((Value.map details).get? "file").map Value.toText
    report .warning ("Could not parse SQL file ".toList ++ name.getD "None" ++ ':' :: ' ' :: message)
  | e => report .warning ("Failed to process ".toList ++ file ++ ':' :: ' ' :: e.text)

end Scanner

/-- A scan of several files on its way. -/
structure Progress where
  scanner : Scanner
  resources : List Resource := []
  failed : Nat := 0
  records : List Log.Record := []

namespace Progress

/-- Goes on with a file. A file that fails is reported and changes nothing else. -/
def step (d : Disk) (p : Progress) (file : Text) : Progress :=
  let r := p.scanner.scanFile d file
  match r.outcome with
  | .error e =>
    { p with
      failed := p.failed + 1
      records := p.records ++ r.records ++ [Scanner.failure file e] }
  | .ok resources =>
    { p with resources := p.resources ++ resources, records := p.records ++ r.records }

/-- Ends a scan with a report of what came of it. -/
def finish (p : Progress) : Progress :=
  { p with records := p.records ++ [Scanner.report .info
      ("Extracted ".toList ++ Text.ofNat p.resources.length ++ " resources (".toList ++
        Text.ofNat p.failed ++ " files failed)".toList)] }

end Progress

/-- Scans files in order. -/
def scan (d : Disk) (s : Scanner) (files : List Text) : Progress :=
  (files.foldl (Progress.step d) { scanner := s }).finish

end CodeManifest.Schema
