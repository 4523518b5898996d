import CodeManifest.Fault
import CodeManifest.Files.Path

namespace CodeManifest.Source

/-- The grammar that reads a source file. With markup in expressions, angle brackets are no casts. -/
inductive Language where
  | typescript
  | tsx
  deriving DecidableEq, Repr

namespace Language

def name : Language → Text
  | typescript => "typescript"
  | tsx => "tsx"

def ofName? (t : Text) : Option Language := [typescript, tsx].find? (·.name = t)

/-- The fault of a language that no grammar reads. -/
def unknown (name : Text) : Fault := .inFile .source ("No grammar available for ".toList ++ name) []

/-- The ends of names and their languages. -/
def bySuffix : List (Text × Language) := [
  (".ts", typescript), (".mts", typescript), (".cts", typescript), (".js", typescript),
  (".mjs", typescript), (".cjs", typescript), (".tsx", tsx), (".jsx", tsx)]

/-- The language of a file, if it is a source file. -/
def ofPath? (p : Path) : Option Language := bySuffix.lookup (Text.lower p.suffix)

end Language

end CodeManifest.Source
