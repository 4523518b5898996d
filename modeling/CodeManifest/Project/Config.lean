import CodeManifest.Failure
import CodeManifest.Sql.Dialect
import CodeManifest.Text.LowerCase
import CodeManifest.Text.Order

namespace CodeManifest.Project

/-- The names that a configuration knows dialects by, in the order in which they are tried when nothing else is
asked for. -/
def Config.supportedDialects : List Text := ["mysql", "postgresql", "sqlite", "mssql"]

structure Config where
  output : Text := "mcp.generated.json"
  summary : Bool := true
  sourceExtensions : List Text := [".ts", ".tsx"]
  ignorePatterns : List Text := []
  dialectNames : List Text := Config.supportedDialects
  debug : Bool := false

namespace Config

/-- The dialects that go by the names. -/
def dialects (c : Config) : List Sql.Dialect := c.dialectNames.filterMap Sql.Dialect.ofName?

/-- The extensions of the files that can be read as sources. -/
def supportedExtensions : List Text := [".ts", ".tsx", ".js", ".jsx", ".mjs", ".cjs"]

/-- The text that a value is. -/
def textOf? : Value → Option Text
  | .text t => some t
  | .halved ps => some (ps.map Text.Point.plain)
  | _ => none

/-- A text stands for itself alone, a list of texts for its items. -/
def textsOf? : Value → Option (List Text)
  | .list vs => vs.mapM textOf?
  | v => (textOf? v).map ([·])

/-- The texts of a setting, which must be some. -/
def textsOf (key : Text) (v : Value) : Except Fault (List Text) :=
  match textsOf? v with
  | some ts => .ok ts
  | none => .error (.configuration ('\'' :: key ++ "' must be a string or a list of strings".toList) [])

/-- An extension begins with a dot. -/
def dotted (extension : Text) : Text :=
  match extension with
  | '.' :: _ => extension
  | _ => '.' :: extension

/-- The extensions asked for, all of which must be supported. -/
def readExtensions (v : Value) : Except Fault (List Text) := do
  let extensions := (← textsOf "source_extensions" v).map dotted
  let unsupported := extensions.filter (! supportedExtensions.contains ·)
  if unsupported.isEmpty then return extensions
  else throw (.configuration "Unsupported source extensions" [
    (.text "extensions", Fault.texts unsupported),
    (.text "supported", Fault.texts supportedExtensions)])

/-- The dialects asked for, in any letter case. There must be one, and all of them must be supported. -/
def readDialects (v : Value) : Except Fault (List Text) := do
  let names := (← textsOf "dialects" v).map Text.lower
  let unknown := names.filter (! supportedDialects.contains ·)
  if unknown.isEmpty && !names.isEmpty then return names
  else throw (.configuration "Unknown SQL dialects" [
    (.text "dialects", Fault.texts unknown),
    (.text "supported", Fault.texts supportedDialects)])

/-- The patterns asked for, each once. An empty setting stands for none, whatever it is. -/
def readPatterns (v : Value) : Except Fault (List Text) :=
  if v.isTruthy then do return Text.sorted (← textsOf "ignore_patterns" v) else return []

/-- The output asked for: any value that has a text. -/
def readOutput (v : Value) : Except Failure Text :=
  if v.isWritable then .ok v.toText else .error (.defect .outOfRange)

/-- What stands under a key, read, or else the default. -/
def setting {ε α : Type} (data : Value) (key : Text) (read : Value → Except ε α) (default : α) :
    Except ε α :=
  match data.get? key with
  | some v => read v
  | none => .ok default

/-- The configuration with an output, and with what a map of settings says besides. -/
def withOutput (output : Text) (data : Value) : Except Fault Config := do
  let summary ← setting data "summary" (fun v => .ok v.isTruthy) ({} : Config).summary
  let debug ← setting data "debug" (fun v => .ok v.isTruthy) ({} : Config).debug
  let sourceExtensions ←
    setting data "source_extensions" readExtensions ({} : Config).sourceExtensions
  let ignorePatterns ← setting data "ignore_patterns" readPatterns ({} : Config).ignorePatterns
  let dialectNames ← setting data "dialects" readDialects ({} : Config).dialectNames
  return { output, summary, sourceExtensions, ignorePatterns, dialectNames, debug }

/-- The configuration that a map of settings makes. -/
def ofValue (data : Value) : Except Failure Config := do
  let output ← setting data "output" readOutput ({} : Config).output
  (withOutput output data).mapError .fault

/-- The configuration with debugging as the environment and the caller ask for. The caller counts
before the environment, and the environment can only turn debugging on. -/
def override (c : Config) (environment : Bool) (explicit : Option Bool) : Config :=
  { c with debug := explicit.getD (c.debug || environment) }

end Config

end CodeManifest.Project
