import CodeManifest.Json.Write
import CodeManifest.Project.Metadata
import CodeManifest.Schema.Resource
import CodeManifest.Tool.Descriptor

namespace CodeManifest

namespace Manifest

/-- An object with text keys. -/
def object (fields : List (Text × Value)) : Value := .map (fields.map fun (k, v) => (.text k, v))

def texts (ts : List Text) : Value := .list (ts.map .text)

/-- A field that is left out where there is no value. -/
def optional (k : Text) : Option Value → List (Text × Value)
  | some v => [(k, v)]
  | none => []

def ofNat (n : Nat) : Value := .int n

def parameter (p : Tool.Parameter) : Value :=
  object ([("type".toList, .text p.type), ("required".toList, .bool p.required)] ++
    optional "description" (p.description.map .text) ++ optional "enum" (p.values.map texts))

/-- The entry of a tool. -/
def tool (t : Tool.Descriptor) : Value :=
  object ([
    ("name".toList, .text t.name),
    ("description".toList, .text t.description),
    ("inputSchema".toList, object [
      ("type".toList, .text "object"),
      ("properties".toList, object (t.parameters.map fun (k, p) => (k, parameter p))),
      ("required".toList, texts ((t.parameters.filter (·.2.required)).map Prod.fst))]),
    ("returnType".toList, .text t.returnType),
    ("category".toList, .text t.category),
    ("file".toList, .text t.sourceFile)] ++
    optional "examples" (if t.examples.isEmpty then none else some (texts t.examples)))

def column (c : Schema.Column) : Value :=
  object ([
    ("type".toList, .text c.type),
    ("nullable".toList, .bool c.nullable),
    ("primaryKey".toList, .bool c.primaryKey),
    ("autoIncrement".toList, .bool c.autoIncrement)] ++
    optional "defaultValue" (match c.default with
      | .null => none
      | v => some v) ++
    optional "length" (c.length.map ofNat))

/-- A text, or nothing. -/
def textOrNull : Option Text → Value
  | some t => .text t
  | none => .null

def foreignKey (k : Schema.ForeignKey) : Value :=
  object [
    ("column".toList, .text k.column),
    ("referencesTable".toList, textOrNull k.table),
    ("referencesColumn".toList, textOrNull k.target)]

/-- The entry of a table. -/
def resource (r : Schema.Resource) : Value :=
  object [
    ("uri".toList, .text ("sql://".toList ++ r.table.name)),
    ("name".toList, .text r.table.name),
    ("description".toList, .text ("Database table: ".toList ++ r.table.name)),
    ("mimeType".toList, .text "application/json"),
    ("metadata".toList, object [
      ("type".toList, .text "sql_table"),
      ("columns".toList, object (r.table.columns.map fun (k, c) => (k, column c))),
      ("indexes".toList, texts r.table.indexes),
      ("foreignKeys".toList, .list (r.table.foreignKeys.map foreignKey)),
      ("file".toList, .text r.sourceFile),
      ("dialect".toList, .text r.dialect),
      ("estimatedRows".toList, .text "unknown"),
      ("lastModified".toList, textOrNull (r.lastModified.map Instant.renderUtc))])]

end Manifest

/-- A manifest before it is written. -/
structure Manifest where
  metadata : Project.Metadata
  tools : List Tool.Descriptor
  resources : List Schema.Resource
  /-- how many source files and SQL files there were -/
  sourceFiles : Value := .int 0
  sqlFiles : Value := .int 0
  generatedAt : Instant

namespace Manifest

/-- The version of the manifest's format. -/
def formatVersion : Text := "0.1.0"

/-- The text about every manifest. -/
def about : Text := Text.join " " [
  "The tools were auto-extracted from exported functions in TypeScript source files, including",
  "APIs, utilities, and business logic. Resources were parsed from .sql files and represent real",
  "database tables. Function names follow conventions like get, create, update, and delete. Use",
  "these tools to build features, compose workflows, or query structured project data."]

/-- How many tools there are of each category, in the order in which the categories come up. -/
def categoryCounts (tools : List Tool.Descriptor) : Keyed Text Nat :=
  tools.foldl (fun counts t =>
    let c := if t.category.isEmpty then "general".toList else t.category
    Keyed.put c ((Keyed.get? c counts).getD 0 + 1) counts) []

/-- The description of the project, or one made from its name. -/
def describe (m : Project.Metadata) : Value :=
  if m.description.isTruthy then m.description
  else match m.name with
    | .halved ps => .halved (opening.map .char ++ ps)
    | name => .text (opening ++ name.toText)
where
  opening : Text := "Auto-generated MCP manifest for "

/-- The manifest as a value. -/
def toValue (m : Manifest) : Value :=
  object [
    ("mcpVersion".toList, .text formatVersion),
    ("info".toList, object [
      ("name".toList, m.metadata.name),
      ("version".toList, m.metadata.version),
      ("description".toList, describe m.metadata),
      ("frameworks".toList, texts m.metadata.frameworks),
      ("generatedAt".toList, .text m.generatedAt.renderUtc)]),
    ("tools".toList, .list (m.tools.map tool)),
    ("resources".toList, .list (m.resources.map resource)),
    ("prompts".toList, .list []),
    ("statistics".toList, object [
      ("totalTools".toList, ofNat m.tools.length),
      ("totalResources".toList, ofNat m.resources.length),
      ("toolsByCategory".toList,
        object ((categoryCounts m.tools).map fun (k, n) => (k, ofNat n))),
      ("filesProcessed".toList, object [
        ("typescript".toList, m.sourceFiles),
        ("sql".toList, m.sqlFiles)])]),
    ("description".toList, .text about)]

/-- The manifest as JSON. -/
def toJson (m : Manifest) : Text := Json.write 0 m.toValue

/-- Does the summary of the manifest have bytes? -/
def hasBytes (m : Manifest) : Bool := m.metadata.name.hasBytes && m.metadata.version.hasBytes

/-- The summary of a manifest. -/
def summary (m : Manifest) (generatedAt : Instant) : Text :=
  let counts := categoryCounts m.tools
  let categories := counts.map fun (k, n) =>
    "- **".toList ++ k ++ "**: ".toList ++ Text.ofNat n ++ " tools".toList
  let tables := m.resources.map fun r =>
    "- **".toList ++ r.table.name ++ "** (".toList ++ Text.ofNat r.table.columns.length ++
      " columns)".toList
  Text.join "\n" ([
    "# MCP Manifest Summary".toList,
    [],
    "Generated: ".toList ++ generatedAt.renderUtc,
    "Project: ".toList ++ m.metadata.name.toText ++ " v".toList ++ m.metadata.version.toText,
    [],
    "## Statistics".toList,
    "- **Tools**: ".toList ++ Text.ofNat m.tools.length,
    "- **Resources**: ".toList ++ Text.ofNat m.resources.length,
    "- **Categories**: ".toList ++ Text.ofNat counts.length,
    [],
    "## Tools by Category".toList] ++ categories ++ [
    [],
    "## Resources".toList] ++ tables ++ [
    [],
    "## Files Processed".toList,
    "- TypeScript files: ".toList ++ m.sourceFiles.toText,
    "- SQL files: ".toList ++ m.sqlFiles.toText,
    []])

end Manifest

end CodeManifest
