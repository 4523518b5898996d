import CodeManifest.Failure
import CodeManifest.Log
import CodeManifest.Source.Extract
import CodeManifest.Source.Parser
import CodeManifest.Tool.Descriptor
import CodeManifest.Tool.Eligibility

namespace CodeManifest.Tool

open Files Source

/-- What becomes of a symbol. -/
inductive Verdict where
  | anonymous
  | rejected (r : Rejection)
  | hidden
  | duplicate
  /-- no tool could be made of it, for the reason given -/
  | broken (reason : Text)
  | tool (t : Descriptor)

namespace Verdict

/-- What becomes of a symbol of the file `path` when the tools with the keys `taken` are there. -/
def of (b : Builder) (path : Text) (taken : List (Text × Text)) (s : Symbol) : Verdict :=
  match s.name.getD [] with
  | [] => anonymous
  | name =>
    match Rejection.of? name path with
    | some r => rejected r
    | none =>
      if !s.isExported then hidden
      else if taken.contains (path, name) then duplicate
      else match b.build name s path with
        | .ok t => tool t
        | .error reason => broken reason

def tool? : Verdict → Option Descriptor
  | tool t => some t
  | _ => none

/-- Why a symbol of the file `path` does not become a tool, and how much that matters. -/
def note? (path : Text) (s : Symbol) : Verdict → Option (Log.Level × Text)
  | anonymous =>
    some (.debug,
      "Skipping anonymous ".toList ++ s.kind.name ++ " at line ".toList ++ Text.ofNat s.line)
  | rejected r =>
    some (.debug, "Skipping ".toList ++ s.qualifiedName ++ ' ' :: '(' :: r.reason ++ [')'])
  | hidden => some (.debug, "Skipping ".toList ++ s.qualifiedName ++ " (not exported)".toList)
  | duplicate => some (.debug, "Skipping duplicate ".toList ++ s.qualifiedName)
  | broken reason =>
    some (.warning, "Error processing ".toList ++ s.qualifiedName ++ " in ".toList ++ path ++
      ':' :: ' ' :: reason)
  | tool _ => none

end Verdict

/-- What becomes of each of some symbols of one file. A symbol that becomes a tool keeps others from
it that have the same name. -/
def judge (b : Builder) (path : Text) (taken : List (Text × Text)) :
    List Symbol → List (Symbol × Verdict)
  | [] => []
  | s :: ss =>
    let v := Verdict.of b path taken s
    (s, v) :: judge b path (v.tool?.toList.map Descriptor.key ++ taken) ss

/-- The tools among some symbols of one file. -/
def select (b : Builder) (path : Text) (taken : List (Text × Text)) (ss : List Symbol) :
    List Descriptor :=
  (judge b path taken ss).filterMap fun e => e.2.tool?

/-- A scanner of a project, with the parsers that it has loaded and its way to make tools. -/
structure Scanner where
  root : Path
  parsers : Parsers := .empty
  builder : Builder := .standard

/-- What comes of a file: the tools in it or why there are none, the reports on the way, and the
scanner afterwards. -/
structure FileScan where
  scanner : Scanner
  records : List Log.Record := []
  outcome : Except Failure (List Descriptor)

namespace Scanner

/-- A scanner of the project below a path. -/
def ofRoot (d : Disk) (root : Path) : Except Failure Scanner := do return { root := ← d.resolved root }

def report (level : Log.Level) (t : Text) : Log.Record := ⟨"tools.scanner", level, t⟩

@[simp] theorem report_level (level : Log.Level) (t : Text) : (report level t).level = level := rfl

@[simp] theorem report_text (level : Log.Level) (t : Text) : (report level t).text = t := rfl

/-- The language and the text of a source file. -/
def source (d : Disk) (p : Path) : Except Failure (Language × Text) :=
  match Language.ofPath? p with
  | none => .error (.fault (.inFile .source "Unsupported file type" p.render))
  | some l =>
    match d.read p with
    | .error e => .error (.fault (.inFile .source ("Failed to read file: ".toList ++ e.message) p.render))
    | .ok (content, _) => .ok (l, Text.ofUtf8 content.toList)

/-- What is reported of the symbols of the file `path` when the tools with the keys `seen` are there. -/
def symbolRecords (b : Builder) (path : Text) (seen : List (Text × Text)) (symbols : FileSymbols) :
    List Log.Record :=
  let damage := if symbols.hasErrors then
      [report .debug (path ++ " has syntax errors; extracting from recovered tree".toList)]
    else []
  let verdicts := judge b path seen symbols.candidates
  let notes := verdicts.filterMap fun e => (e.2.note? path e.1).map fun n =>
    report n.1 ("  - ".toList ++ n.2)
  let tools := select b path seen symbols.candidates
  let ended := report .debug
    ("  - ".toList ++ Text.ofNat tools.length ++ " tools from ".toList ++ path)
  damage ++ notes ++ [ended]

/-- The tools in the text of the file `path`, apart from those with the keys `seen`. -/
def scanText (s : Scanner) (seen : List (Text × Text)) (path : Text) (l : Language) (t : Text) :
    FileScan :=
  let answer := s.parsers.parserFor l.name
  let scanner := { s with parsers := answer.parsers }
  match answer.outcome with
  | .error e => { scanner, records := answer.records, outcome := .error (.fault e) }
  | .ok parser =>
    let symbols := (parser.parse t).symbols
    { scanner
      records := answer.records ++ symbolRecords s.builder path seen symbols
      outcome := .ok (select s.builder path seen symbols.candidates) }

/-- The tools in a file, apart from those with the keys `seen`. -/
def scanFile (d : Disk) (s : Scanner) (seen : List (Text × Text)) (file : Text) : FileScan :=
  let p := Path.ofText file
  match d.nameWithin s.root p with
  | .error e => { scanner := s, outcome := .error e }
  | .ok path =>
    let begun := report .debug ("Processing file: ".toList ++ path)
    match source d (s.root.join p) with
    | .error e => { scanner := s, records := [begun], outcome := .error e }
    | .ok (l, t) =>
      let r := s.scanText seen path l t
      { r with records := begun :: r.records }

/-- How the report of a file that fails begins. -/
def failureOpening : Text := "Failed to process "

/-- The report of a file that fails. -/
def failure (file : Text) (e : Failure) : Log.Record :=
  report .warning (failureOpening ++ file ++ ':' :: ' ' :: e.text)

end Scanner

/-- A scan of several files on its way. -/
structure Progress where
  scanner : Scanner
  tools : List Descriptor := []
  failed : Nat := 0
  records : List Log.Record := []

namespace Progress

/-- Goes on with a file. A file that fails is reported and changes nothing else. -/
def step (d : Disk) (p : Progress) (file : Text) : Progress :=
  let r := p.scanner.scanFile d (p.tools.map Descriptor.key) file
  match r.outcome with
  | .error e =>
    { p with
      scanner := r.scanner, failed := p.failed + 1
      records := p.records ++ r.records ++ [Scanner.failure file e] }
  | .ok tools =>
    { p with
      scanner := r.scanner, tools := p.tools ++ tools, records := p.records ++ r.records }

/-- Ends a scan with a report of what came of it. -/
def finish (p : Progress) : Progress :=
  { p with records := p.records ++ [Scanner.report .info
      ("Extracted ".toList ++ Text.ofNat p.tools.length ++ " tools (".toList ++ Text.ofNat p.failed ++
        " files failed)".toList)] }

end Progress

/-- Scans files in order. -/
def scan (d : Disk) (s : Scanner) (files : List Text) : Progress :=
  (files.foldl (Progress.step d) { scanner := s }).finish

end CodeManifest.Tool
