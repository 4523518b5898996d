import CodeManifest.Fault
import CodeManifest.Files.Disk
import CodeManifest.Sql.Render
import CodeManifest.Yaml.Cursor

namespace CodeManifest

inductive Failure where
  | fault (f : Fault)
  | file (e : Files.Error)
  /-- a text that is not in UTF-8 -/
  | encoding
  /-- a text with halves of surrogate pairs where bytes are wanted -/
  | halves
  /-- links that lead around in a circle, at a path -/
  | circle (p : Path)
  /-- a setting whose text is no value, or whose value has no text -/
  | defect (d : Yaml.Defect)
  /-- a type that no schema can name -/
  | untitled (u : Sql.Untitled)
  /-- a separator where the value of an option is written -/
  | separator

namespace Failure

/-- The text of a failure. -/
def text : Failure → Text
  | fault f => f.text
  | file e => e.message
  | encoding => "not a text in UTF-8"
  | halves => "a text without bytes"
  | circle p => "Symlink loop from ".toList ++ Text.quoted p.render
  | defect _ => "a setting without a value"
  | untitled u => u.message
  | separator => "a separator without a value"

/-- Does a run end in good order on such a failure? -/
def isReported : Failure → Bool
  | fault _ | file _ => true
  | _ => false

end Failure

namespace Files.Disk

/-- The text of a file, with all line ends alike. -/
def readText (d : Disk) (p : Path) : Except Failure Text :=
  match d.read p with
  | .error e => .error (.file e)
  | .ok (content, _) =>
    match Text.ofUtf8? content.toList with
    | some t => .ok (Text.unifyLineEnds t)
    | none => .error .encoding

/-- The absolute path without links that a path stands for, unless links lead around in a circle. -/
def resolved (d : Disk) (p : Path) : Except Failure Path :=
  match d.resolve p with
  | .ok q => .ok q
  | .error q => .error (.circle q)

/-- How a file of a project is named in a manifest. -/
def nameWithin (d : Disk) (root p : Path) : Except Failure Text := do
  return (← Path.within d.resolved root p).render

end Files.Disk

end CodeManifest
