import CodeManifest.Source.Language
import CodeManifest.Source.Read.Statement

namespace CodeManifest.Source

/-- The tree of a text. Every level of it takes a character at least, so that its length bounds how
deep it nests. -/
def Node.ofText (l : Language) (t : Text) : Node :=
  let r := Deeper.ofDepth (l = .tsx) (t.length + 1)
  match Reader.file r (.ofText t) with
  | some (n, _) => n
  | none => { kind := .program, damaged := true }

end CodeManifest.Source
