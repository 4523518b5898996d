import CodeManifest.Failure
import CodeManifest.Text.Blank
import CodeManifest.Text.Line
import CodeManifest.Text.Order

namespace CodeManifest.Project

open Files

namespace Ignore

/-- The patterns that every project has. -/
def standard : List Text := List.map String.toList [
  ".git", ".svn", ".hg", "node_modules", "bower_components", "vendor", ".venv", "venv", "__pycache__",
  "dist", "build", "out", ".next", ".nuxt", "coverage", ".idea", ".vscode", ".cache", ".turbo"]

/-- The file in which a project lists further patterns. -/
def fileName : Text := ".mcpgenignore"

/-- The pattern of a line, if it has one. A hash begins a comment; slashes at the end say nothing. -/
def ofLine? (line : Text) : Option Text :=
  match Text.trim line with
  | [] | '#' :: _ => none
  | t => some (t.reverse.dropWhile (· = '/')).reverse

def ofText (t : Text) : List Text := (Text.lines t).filterMap ofLine?

/-- The patterns of the project below a path: those of every project, further ones, and those that
it lists itself. -/
def load (d : Disk) (root : Path) (further : List Text) : Except Failure (List Text) := do
  let p := root.child fileName
  let own ← if d.isThere p then (d.readText p).map ofText else pure []
  return Text.sorted (standard ++ further ++ own)

end Ignore

end CodeManifest.Project
