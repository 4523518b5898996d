import CodeManifest.Files.Glob
import CodeManifest.Log
import CodeManifest.Project.Ignore

namespace CodeManifest.Project

open Files

/-- What is looked for. -/
structure Wanted where
  /-- the ends of names, in small letters -/
  extensions : List Text
  /-- patterns of directories and files that are left out -/
  ignored : List Text
  /-- further patterns of files that are left out -/
  excluded : List Text := []

/-- The most bytes that a file may have. -/
def maxFileSize : Nat := 2 * 1024 * 1024

namespace Wanted

/-- Is a directory left out, and everything in it? -/
def prunes (w : Wanted) (name : Text) : Bool :=
  w.ignored.contains name || name.head? = some '.' || w.ignored.any (fits · name)

/-- Is a file looked for, given the names that lead to it and its own? -/
def takes (w : Wanted) (above : List Text) (name : Text) : Bool :=
  let path : Path := { parts := above ++ [name] }
  name.head? ≠ some '.' &&
    w.extensions.contains (Text.lower (Path.suffixOf name)) &&
    !w.excluded.any (fits · name) &&
    !w.ignored.any fun p => (fits p name || fits p path.render)

end Wanted

/-- A file that is looked for, by the names that lead to it. One that is too large is told apart. -/
inductive Visit where
  | file (parts : List Text)
  | large (parts : List Text)
  deriving DecidableEq, Repr

def Visit.file? : Visit → Option (List Text)
  | file ns => some ns
  | large _ => none

def Visit.large? : Visit → Option (List Text)
  | file _ => none
  | large ns => some ns

/-- Texts under names, in the order of the names. -/
def byName {α : Type} (es : List (Text × α)) : List (Text × α) := es.mergeSort fun a b => Text.le a.1 b.1

/-- A project on a disk. -/
structure Place where
  disk : Disk
  root : Path

namespace Place

def path (p : Place) (names : List Text) : Path := { p.root with parts := p.root.parts ++ names }

/-- Does an entry count as a file? A link does unless it leads to a directory. -/
def isFile (p : Place) (above : List Text) (name : Text) : Entry → Bool
  | .file _ _ => true
  | .link _ => !p.disk.isDirectory (p.path (above ++ [name]))
  | .directory _ => false

/-- What becomes of a file that is looked for. One that cannot be reached is passed over. -/
def visit? (p : Place) (names : List Text) : Option Visit :=
  match p.disk.entry (p.path names) with
  | .ok (.file content _) => some (if content.size > maxFileSize then .large names else .file names)
  | .ok _ => some (.file names)
  | .error _ => none

/-- The files of a directory that are looked for. -/
def visits (p : Place) (w : Wanted) (above : List Text) (es : List (Text × Entry)) : List Visit :=
  let names := (byName es).filter fun e => p.isFile above e.1 e.2 && w.takes above e.1
  names.filterMap fun e => p.visit? (above ++ [e.1])

mutual

/-- The files that are looked for in a directory at the end of the names `above`: first its own, then
those of the directories in it. -/
def walk (p : Place) (w : Wanted) (above : List Text) : Entry → List Visit
  | .directory es => p.visits w above es ++ (byName (walkAll p w above es)).flatMap Prod.snd
  | _ => []

/-- The same for each of the directories among some entries. -/
def walkAll (p : Place) (w : Wanted) (above : List Text) : List (Text × Entry) → List (Text × List Visit)
  | [] => []
  | (n, .directory es) :: rest =>
    if w.prunes n then walkAll p w above rest
    else (n, walk p w (above ++ [n]) (.directory es)) :: walkAll p w above rest
  | _ :: rest => walkAll p w above rest

end

end Place

/-- The visits of a walk through the project below a path. Ends of names count in any letter case. -/
def walk (d : Disk) (root : Path) (extensions further excludedDirectories excluded : List Text) :
    Except Failure (List Visit) := do
  let ignored ← Ignore.load d root further
  let place : Place := ⟨d, ← d.resolved root⟩
  let w : Wanted := ⟨extensions.map Text.lower, ignored ++ excludedDirectories, excluded⟩
  return match d.entry place.root with
    | .ok e => place.walk w [] e
    | .error _ => []

/-- Names of source files that only test or declare. -/
def excludedSources : List Text := ["*.test.*", "*.spec.*", "*.d.ts"]

/-- Directories with SQL files that only change tables. -/
def excludedSqlDirectories : List Text := ["migrations"]

/-- The files found, and the reports about them. -/
structure Found where
  files : List Path
  records : List Log.Record

namespace Found

def report (t : Text) : Log.Record := ⟨"discovery", .debug, t⟩

/-- The files of a walk as they come, and the reports about those that are passed over. -/
def inWalkOrder (vs : List Visit) : Found where
  files := (vs.filterMap Visit.file?).map fun ns => { parts := ns }
  records := (vs.filterMap Visit.large?).map fun ns =>
    report ("Skipping large file: ".toList ++ ({ parts := ns } : Path).render)

/-- The files of a walk in the order of their paths, and a report of how many there are. -/
def ofVisits (root : Path) (what : Text) (vs : List Visit) : Found :=
  let found := inWalkOrder vs
  let ended := report ("Found ".toList ++ Text.ofNat found.files.length ++ ' ' :: what ++
    " files under ".toList ++ root.render)
  ⟨found.files.mergeSort Path.le, found.records ++ [ended]⟩

end Found

/-- The source files of a project with the given ends of names. -/
def findSources (d : Disk) (root : Path) (extensions further : List Text) : Except Failure Found := do
  return .ofVisits root "source" (← walk d root extensions further [] excludedSources)

/-- The SQL files of a project. -/
def findSql (d : Disk) (root : Path) (further : List Text) : Except Failure Found := do
  return .ofVisits root "SQL" (← walk d root [".sql"] further excludedSqlDirectories [])

end CodeManifest.Project
