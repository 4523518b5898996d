import CodeManifest.Files.Entry
import CodeManifest.Text.Quoted
import CodeManifest.Text.Utf8

namespace CodeManifest.Files

/-- What can be in the way of an operation. -/
inductive Obstacle where
  | missing
  | exists
  | notDirectory
  | isDirectory
  | tooManyLinks
  deriving DecidableEq, Repr

namespace Obstacle

/-- The number by which systems know the obstacle. -/
def code : Obstacle → Nat
  | missing => 2
  | «exists» => 17
  | notDirectory => 20
  | isDirectory => 21
  | tooManyLinks => 40

def text : Obstacle → Text
  | missing => "No such file or directory"
  | «exists» => "File exists"
  | notDirectory => "Not a directory"
  | isDirectory => "Is a directory"
  | tooManyLinks => "Too many levels of symbolic links"

end Obstacle

/-- An operation that failed, with the path as it was given. -/
structure Error where
  obstacle : Obstacle
  path : Text

def Error.message (e : Error) : Text :=
  "[Errno ".toList ++ Text.ofNat e.obstacle.code ++ ']' :: ' ' :: e.obstacle.text ++ ':' :: ' ' ::
    Text.quoted e.path

/-- How many links may be followed on the way to a file that is to be read or written. -/
def maxLinks : Nat := 40

/-- Where the path that is written in a link of a directory begins. -/
def origin (directory : List Text) (p : Path) : List Text := if p.isAbsolute then [] else directory

/-- Where the names `todo` lead from the directory at the end of `done`, which holds no links: the
place, and what is there. Only the last name may be one that is not there. -/
def follow (root : Entry) (links : Nat) (done todo : List Text) :
    Except Obstacle (List Text × Option Entry) :=
  match todo with
  | [] => .ok (done, root.at? done)
  | n :: ns =>
    match root.at? done with
    | some (.directory es) =>
      if n = Path.parentName then follow root links done.dropLast ns
      else match Keyed.get? n es with
        | none => if ns.isEmpty then .ok (done ++ [n], none) else .error .missing
        | some (.link t) =>
          match links with
          | 0 => .error .tooManyLinks
          | links + 1 =>
            let p := Path.ofText t
            follow root links (origin done p) (p.parts ++ ns)
        | some _ => follow root links (done ++ [n]) ns
    | some (.file _ _) => .error .notDirectory
    | _ => .error .missing
termination_by (links, todo.length)
decreasing_by all_goals simp_wf; try omega

/-- The place where names lead without any links. Names that are not there are kept. `opened` are the links that
are just being read: where one of them comes up again the links lead around in a circle, and the way ends there,
which is told. -/
def resolveFrom (root : Entry) (opened : List (List Text)) (done todo : List Text) :
    Except (List Text) (List Text) :=
  match todo with
  | [] => .ok done
  | n :: ns =>
    if n = Path.parentName then resolveFrom root opened done.dropLast ns
    else match _hat : root.at? (done ++ [n]) with
      | some (.link t) =>
        if _hopened : done ++ [n] ∈ opened then .error (done ++ n :: ns)
        else
          match resolveFrom root ((done ++ [n]) :: opened) (origin done (.ofText t)) (Path.ofText t).parts with
          | .ok place => resolveFrom root opened place ns
          | .error circle => .error (circle ++ ns)
      | _ => resolveFrom root opened (done ++ [n]) ns
termination_by (root.linksBeside opened, todo.length)
decreasing_by
  · exact .right _ (Nat.lt_succ_self ns.length)
  · exact .left _ _ (Entry.linksBeside_cons _hat _hopened)
  · exact .right _ (Nat.lt_succ_self ns.length)
  · exact .right _ (Nat.lt_succ_self ns.length)

/-- A tree of files and the current directory in it. -/
structure Disk where
  root : Entry := .directory []
  here : Path := ⟨['/'], []⟩

namespace Disk

/-- The names that lead from the root to a path. -/
def names (d : Disk) (p : Path) : List Text := (d.here.join p).parts

/-- Where a path leads. -/
def find (d : Disk) (p : Path) : Except Obstacle (List Text × Option Entry) :=
  follow d.root maxLinks [] (d.names p)

/-- What is at a path. -/
def entry (d : Disk) (p : Path) : Except Obstacle Entry :=
  match d.find p with
  | .ok (_, some e) => .ok e
  | .ok (_, none) => .error .missing
  | .error o => .error o

def isThere (d : Disk) (p : Path) : Bool :=
  match d.entry p with
  | .ok _ => true
  | .error _ => false

def isDirectory (d : Disk) (p : Path) : Bool :=
  match d.entry p with
  | .ok e => e.isDirectory
  | .error _ => false

/-- The absolute path without links that a path stands for. -/
def resolve (d : Disk) (p : Path) : Except Path Path :=
  match resolveFrom d.root [] [] (d.names p) with
  | .ok ns => .ok ⟨['/'], ns⟩
  | .error ns => .error (Path.normal ⟨['/'], ns⟩)

/-- The content of a file with the time of its last change. -/
def read (d : Disk) (p : Path) : Except Error (ByteArray × Int) :=
  match d.entry p with
  | .ok (.file content changed) => .ok (content, changed)
  | .ok _ => .error ⟨.isDirectory, p.render⟩
  | .error o => .error ⟨o, p.render⟩

/-- The disk after a change to the file at a path, which `f` makes of its old content. -/
def update (d : Disk) (p : Path) (now : Int) (f : ByteArray → ByteArray) : Except Error Disk :=
  match d.find p with
  | .ok (ns, none) => .ok { d with root := d.root.put ns (.file (f .empty) now) }
  | .ok (ns, some (.file old _)) => .ok { d with root := d.root.put ns (.file (f old) now) }
  | .ok (_, some _) => .error ⟨.isDirectory, p.render⟩
  | .error o => .error ⟨o, p.render⟩

/-- The disk with a text as the whole content of a file. -/
def write (d : Disk) (p : Path) (t : Text) (now : Int) : Except Error Disk :=
  d.update p now fun _ => Text.toUtf8 t

/-- The disk with a text at the end of a file. -/
def append (d : Disk) (p : Path) (t : Text) (now : Int) : Except Error Disk :=
  d.update p now fun old => old ++ Text.toUtf8 t

/-- The disk with a new directory. -/
def makeDirectory (d : Disk) (p : Path) : Except Error Disk :=
  let ns := d.names p
  match ns.getLast?, follow d.root maxLinks [] ns.dropLast with
  | some n, .ok (place, some (.directory es)) =>
    if n = Path.parentName || (Keyed.get? n es).isSome then .error ⟨.exists, p.render⟩
    else .ok { d with root := d.root.put (place ++ [n]) (.directory []) }
  | some _, .ok (_, some _) => .error ⟨.notDirectory, p.render⟩
  | some _, .ok (_, none) => .error ⟨.missing, p.render⟩
  | some _, .error o => .error ⟨o, p.render⟩
  | none, _ => .error ⟨.exists, p.render⟩

/-- The disk with a directory and all that lead to it. One that is there already is left as it is.
What was made before a failure stays. `depth` bounds how many are made. -/
def makeDirectoriesFor (d : Disk) : Nat → Path → Disk × Option Error
  | depth, p =>
    match d.makeDirectory p, depth with
    | .ok d, _ => (d, none)
    | .error ⟨.missing, shown⟩, 0 => (d, some ⟨.missing, shown⟩)
    | .error ⟨.missing, _⟩, depth + 1 =>
      match d.makeDirectoriesFor depth p.parent with
      | (d, some e) => (d, some e)
      | (d, none) =>
        match d.makeDirectory p with
        | .ok d => (d, none)
        | .error e => (d, if e.obstacle ≠ .missing && d.isDirectory p then none else some e)
    | .error e, _ => (d, if d.isDirectory p then none else some e)

def makeDirectories (d : Disk) (p : Path) : Disk × Option Error :=
  d.makeDirectoriesFor p.parts.length p

/-- The disk without a file, a link or a directory. -/
def remove (d : Disk) (p : Path) : Except Error Disk :=
  let ns := d.names p
  match follow d.root maxLinks [] ns.dropLast with
  | .ok (place, some e) =>
    match ns.getLast?.bind e.child? with
    | some _ => .ok { d with root := d.root.erase (place ++ ns.getLast?.toList) }
    | none => .error ⟨if e.isDirectory then .missing else .notDirectory, p.render⟩
  | .ok (_, none) => .error ⟨.missing, p.render⟩
  | .error o => .error ⟨o, p.render⟩

end Disk

end CodeManifest.Files
