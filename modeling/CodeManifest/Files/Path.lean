import CodeManifest.Text.LowerCase
import CodeManifest.Text.Order

namespace CodeManifest

/-- A path. The root is empty, one slash, or exactly two. -/
structure Path where
  root : Text := []
  parts : List Text := []
  deriving DecidableEq, Repr

namespace Path

def parentName : Text := ".."

/-- Reads a path. Three slashes or more at the front are one. -/
def ofText (t : Text) : Path :=
  let slashes := (t.takeWhile (· = '/')).length
  { root := List.replicate (if slashes = 0 then 0 else if slashes = 2 then 2 else 1) '/'
    parts := (Text.split (· = '/') t).filter fun p => !p.isEmpty && p ≠ ['.'] }

/-- Writes a path; one that says nothing is a dot. -/
def render (p : Path) : Text :=
  if p.root.isEmpty && p.parts.isEmpty then ['.'] else p.root ++ Text.join "/" p.parts

def isAbsolute (p : Path) : Bool := !p.root.isEmpty

/-- The second path as seen from the first. -/
def join (p q : Path) : Path := if q.isAbsolute then q else { p with parts := p.parts ++ q.parts }

def child (p : Path) (name : Text) : Path := { p with parts := p.parts ++ [name] }

/-- Does a null character stand in the path? No operation on files takes such a path. -/
def hasNull (p : Path) : Bool := p.parts.any (·.contains '\x00')

/-- The last name. -/
def name (p : Path) : Text := p.parts.getLast?.getD []

def parent (p : Path) : Path := { p with parts := p.parts.dropLast }

/-- The end of a name from its last dot on, unless that dot is the first or the last character. -/
def suffixOf (name : Text) : Text :=
  let ending := (name.reverse.takeWhile (· ≠ '.')).reverse
  let start := name.length - ending.length
  if 1 < start && !ending.isEmpty && ending.length < name.length then '.' :: ending else []

def suffix (p : Path) : Text := suffixOf p.name

example : (ofText "a.b.tsx").suffix = ".tsx".toList := by decide
example : (ofText ".tsx").suffix = [] ∧ (ofText "a.").suffix = [] := by decide

/-- The names that lead from `base` to a path below it. -/
def relativeTo? (base p : Path) : Option Path :=
  if base.root = p.root then (base.parts.isPrefixOf? p.parts).map ({ parts := · }) else none

/-- The parts that are left when each double dot takes back the name in front of it, the last first. -/
def settle (done : List Text) : List Text → List Text
  | [] => done
  | n :: ns => if n = parentName then settle done.tail ns else settle (n :: done) ns

/-- An absolute path without double dots; nothing stands above the root. -/
def normal (p : Path) : Path := ⟨['/'], (settle [] p.parts).reverse⟩

/-- The order of paths: by root, then name by name. -/
def le (p q : Path) : Bool := leAll (p.root :: p.parts) (q.root :: q.parts)
where
  leAll : List Text → List Text → Bool
    | [], _ => true
    | _ :: _, [] => false
    | a :: as, b :: bs => if a = b then leAll as bs else Text.le a b

/-- How a file of a project is named: by its path below the root, taken as it is or else as `resolve`
sees it; a file elsewhere keeps its path. An absolute path is resolved in any case, so it has no name
where that fails. -/
def within {m : Type → Type} [Monad m] (resolve : Path → m Path) (root p : Path) : m Path :=
  if p.isAbsolute then do
    let resolved ← resolve p
    return (root.relativeTo? p).getD ((root.relativeTo? resolved).getD p)
  else pure p

end Path

end CodeManifest
