import CodeManifest.CommandLine
import CodeManifest.Log.Output
import CodeManifest.Manifest
import CodeManifest.Pipeline
import CodeManifest.Project.Package
import CodeManifest.Project.Settings
import CodeManifest.Project.Walk

namespace CodeManifest

open Files Project

/-- A part of a run. What was written and reported before a failure stays. -/
abbrev Run := ExceptT Failure (StateM Log.Session)

namespace Run

def report (r : Log.Record) : Run Unit := modify (·.report r)

def reportAll (rs : List Log.Record) : Run Unit := rs.forM report

def say (t : Text) : Run Unit := report ⟨"cli", .info, t⟩

def print (line : Text) : Run Unit := modify fun s => { s with printed := s.printed ++ line ++ ['\n'] }

/-- Prints a value behind a label. -/
def printValue (label : Text) (v : Value) : Run Unit :=
  if v.hasBytes then print (label ++ v.toText) else throw .halves

/-- Goes on with a result that does not depend on the session. -/
def lift {α : Type} (r : Except Failure α) : Run α := ExceptT.mk (pure r)

def fail {α : Type} (kind : Fault.Kind) (t : Text) : Run α := throw (.fault ⟨kind, t, []⟩)

/-- Goes on with a path that an operation on files can take. -/
def reach (p : Path) : Run Unit := if p.hasNull then throw (.defect .outOfRange) else pure ()

/-- Sets up the output. -/
def configure (e : Environment) (debug : Option Bool) : Run Unit := do
  match (← get).configure e debug none with
  | (s, failure) =>
    set s
    match failure with
    | some e => throw (.file e)
    | none => pure ()

/-- The manifest of the project below a path, which has no links in it. -/
def analyze (root : Path) (c : Config) : Run Manifest := do
  say ("Analyzing project at ".toList ++ root.render)
  let disk := (← get).disk
  let sources ← lift (findSources disk root c.sourceExtensions c.ignorePatterns)
  reportAll sources.records
  let sqlFiles ← lift (findSql disk root c.ignorePatterns)
  reportAll sqlFiles.records
  let absolute := fun (p : Path) => (root.join p).render
  let result := Pipeline.run disk root (sources.files.map absolute) (sqlFiles.files.map absolute)
    c.dialectNames []
  reportAll result.records
  let (metadata, records) ← lift (readMetadata disk root)
  reportAll records
  return {
    metadata
    tools := result.tools
    resources := result.resources
    sourceFiles := Manifest.ofNat sources.files.length
    sqlFiles := Manifest.ofNat sqlFiles.files.length
    generatedAt := (← get).now }

def note (t : Text) : Run Unit := report ⟨"manifest", .info, t⟩

/-- Writes a text into a file; `what` tells what it is. -/
def write (what : Text) (p : Path) (t : Text) : Run Unit := do
  reach p
  let s ← get
  match s.disk.write p t s.now.micros with
  | .ok d => set { s with disk := d }
  | .error e => refuse what p e
where
  refuse (what : Text) (p : Path) (e : Files.Error) : Run Unit :=
    fail .manifest ("Could not write ".toList ++ what ++ " to ".toList ++ p.render ++ ':' :: ' ' :: e.message)

/-- Makes the directories that lead to the manifest. -/
def makeRoom (p : Path) : Run Unit := do
  reach p.parent
  let s ← get
  let (d, failure) := s.disk.makeDirectories p.parent
  set { s with disk := d }
  match failure with
  | some e => write.refuse "manifest" p e
  | none => pure ()

/-- The name of the summary beside a manifest. -/
def summaryName : Text := "mcp.summary.md"

def rule : Text := List.replicate 50 '='

def writeManifest (p : Path) (m : Manifest) : Run Unit := do
  makeRoom p
  write "manifest" p (m.toJson ++ ['\n'])
  note ("MCP manifest written to ".toList ++ p.render)

def writeSummary (p : Path) (m : Manifest) : Run Unit := do
  if m.hasBytes then write "summary" p (m.summary m.generatedAt)
  else
    -- The file is opened before the text of the summary fails.
    write "summary" p []
    throw .halves
  note ("Summary written to ".toList ++ p.render)

/-- Where the manifest goes: what the caller says counts before the configuration, and an empty text
says nothing. -/
def outputPath (root : Path) (c : Config) (output : Option Text) : Path :=
  let asked := output.getD []
  root.join (.ofText (if asked.isEmpty then c.output else asked))

/-- Writes the manifest of a project, and its summary if that is asked for. -/
def generate (root : Path) (c : Config) (output : Option Text) (summary : Option Bool) : Run Nat := do
  let m ← analyze root c
  let p := outputPath root c output
  writeManifest p m
  if summary.getD c.summary then writeSummary (p.parent.child summaryName) m
  let tools := Text.ofNat m.tools.length
  let resources := Text.ofNat m.resources.length
  say ("Extracted ".toList ++ tools ++ " tools and ".toList ++ resources ++ " resources".toList)
  say rule
  say "GENERATION SUMMARY"
  say ("Project: ".toList ++ m.metadata.name.toText)
  say ("Tools: ".toList ++ tools)
  say ("Resources: ".toList ++ resources)
  say ("Frameworks: ".toList ++ Package.listed m.metadata.frameworks "None detected")
  say rule
  return 0

/-- Prints what a manifest would say of a project. -/
def info (root : Path) (c : Config) : Run Nat := do
  let m ← analyze root c
  [rule, "PROJECT ANALYSIS".toList, rule].forM print
  printValue "Project: " m.metadata.name
  printValue "Version: " m.metadata.version
  printValue "Description: " (Manifest.describe m.metadata)
  [ "Frameworks: ".toList ++ Package.listed m.metadata.frameworks "None detected",
    "Tools Found: ".toList ++ Text.ofNat m.tools.length,
    "Resources Found: ".toList ++ Text.ofNat m.resources.length,
    "Files Processed: ".toList ++ m.sourceFiles.toText ++ " TS, ".toList ++ m.sqlFiles.toText ++
      " SQL".toList, rule].forM print
  return 0

/-- What the program prints about its version. -/
def version : Text := "mcp-generator 1.0.9"

/-- Does what a command asks for in the project below a path. -/
def perform (e : Environment) (a : CommandLine.Arguments) (root : Path) : Run Nat := do
  if !(← get).disk.isDirectory root then
    fail .general ("Project root is not a directory: ".toList ++ root.render)
  let debug := if a.debug then some true else none
  let c ← lift (loadConfig (← get).disk root e debug)
  if c.debug then configure e (some true)
  match a.command with
  | some .info => info root c
  | _ => generate root c a.output a.summary

/-- Runs a command. Failures that a run can meet in good order are reported, and the code tells of
them. -/
def command (e : Environment) (a : CommandLine.Arguments) : Run Nat := do
  configure e (if a.debug then some true else none)
  reach (.ofText a.root)
  let root ← lift ((← get).disk.resolved (.ofText a.root))
  try perform e a root
  catch f =>
    if f.isReported then
      report ⟨"cli", .error, "Error generating MCP manifest: ".toList ++ f.text⟩
      pure 1
    else throw f

/-- Runs the program. Yields the code with which it ends. -/
def main (e : Environment) (words : List Text) : Run Nat := do
  match CommandLine.parse words with
  | .ok a => command e a
  | .error .version =>
    print version
    return 0
  | .error s =>
    match s.code? with
    | some n => return n
    | none => throw .separator

end Run

end CodeManifest
