import CodeManifest.Failure
import CodeManifest.Json.Read
import CodeManifest.Log
import CodeManifest.Project.Metadata

namespace CodeManifest.Project

open Files

/-- The name of the file. -/
def packageName : Text := "package.json"

namespace Package

def report (level : Log.Level) (t : Text) : Log.Record := ⟨"metadata", level, t⟩

/-- The object that a package file holds, or why it holds none. -/
def read (d : Disk) (p : Path) : Except Text Value :=
  match d.readText p with
  | .error e => .error e.text
  | .ok t =>
    match Json.read? t with
    | some (.map es) => .ok (.map es)
    | some _ => .error "top-level value is not an object"
    | none => .error "not a value in JSON"

/-- The names of frameworks with commas between them, or another text if there are none. -/
def listed (frameworks : List Text) (none : Text) : Text :=
  if frameworks.isEmpty then none else Text.join ", " frameworks

end Package

open Package in
/-- What the project below a path says of itself, and the reports about it. Without a package file
that can be read it goes by the name of its directory. -/
def readMetadata (d : Disk) (root : Path) : Except Failure (Metadata × List Log.Record) := do
  let root ← d.resolved root
  let p := root.child packageName
  let unknown : Metadata := { name := .text root.name }
  if !d.isThere p then
    return (unknown, [report .warning ("No ".toList ++ packageName ++ " found in ".toList ++ root.render)])
  match Package.read d p with
  | .error reason =>
    return (unknown, [report .warning ("Could not read ".toList ++ packageName ++ ':' :: ' ' :: reason)])
  | .ok package =>
    let m := Metadata.ofPackage root.name package
    return (m, [
      report .debug ("Read ".toList ++ packageName ++ " for project: ".toList ++ m.name.toText),
      report .info ("Detected frameworks: ".toList ++ listed m.frameworks "none")])

end CodeManifest.Project
