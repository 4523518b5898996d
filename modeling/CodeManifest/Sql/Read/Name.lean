import CodeManifest.Sql.Read
import CodeManifest.Sql.Expr

namespace CodeManifest.Sql.Reader

/-- The keywords that may also be a name. -/
private def softKeywords : List String := [
  "ALL", "ANTI", "ANY", "ASC", "ASOF", "BEGIN", "CACHE", "CASE", "COLLATE", "COLUMN", "COMMIT",
  "CONSTRAINT", "COPY", "CUBE", "CURRENT_DATE", "CURRENT_SCHEMA", "CURRENT_TIME",
  "CURRENT_TIMESTAMP", "CURRENT_USER", "DATABASE", "DEFAULT", "DELETE", "DESC", "DESCRIBE", "DIV",
  "END", "ESCAPE", "EXECUTE", "EXISTS", "FALSE", "FILTER", "FILE", "FIRST", "FULL", "FUNCTION",
  "FOREIGN KEY", "FORMAT", "INDEX", "IS", "ISNULL", "KEEP", "KILL", "LEFT", "LIMIT", "LOAD",
  "LOCALTIME", "LOCALTIMESTAMP", "LOCK", "MATCH", "MERGE", "NAMESPACE", "NATURAL", "NEXT",
  "OFFSET", "OPERATOR", "ORDINALITY", "OVERLAPS", "OVERWRITE", "PARTITION", "PERCENT", "PIVOT",
  "PRAGMA", "PROCEDURE", "RANGE", "RECURSIVE", "REFERENCES", "RENAME", "REPLACE", "RIGHT",
  "ROLLUP", "ROW", "ROWS", "SCHEMA", "SEMI", "SEQUENCE", "SESSION", "SESSION_USER", "SET",
  "SETTINGS", "SHOW", "SOME", "TABLE", "TEMPORARY", "TOP", "TRUE", "TRUNCATE", "UNIQUE", "UNNEST",
  "UNPIVOT", "UPDATE", "USE", "VIEW", "VOLATILE", "WINDOW", "APPLY", "ANALYZE", "COMMENT",
  "AUTO_INCREMENT", "COMMAND", "ATTACH", "DETACH", "INOUT", "DECLARE"]

/-- May the token be a name where no name is required? -/
def mayName (t : Token) : Bool :=
  match t.kind with
  | .word | .type _ => true
  | .keyword k => softKeywords.contains k
  | _ => false

/-- Tokens that are no name even where one is required: the single marks, and `SELECT`. -/
def isReserved (t : Token) : Bool :=
  match t.kind with
  | .mark m => m.length = 1 || m = "=="
  | .type "UNKNOWN" | .keyword "SELECT" => true
  | _ => false

/-- A name in quotation marks. -/
def quotedName : Reader (Option Ident) := do
  match ← take? (·.kind = .quoted) with
  | some t => pure (some ⟨t.text, true⟩)
  | none => pure none

/-- A parameter of a prepared statement. -/
def parameter : Reader (Option Expr) := attempt do
  if ← mark "?" then pure (some (.placeholder "?"))
  else if ← mark "@" then
    match ← take? fun t => t.kind = .quoted || t.kind = .string || t.kind = .number || mayName t with
    | some t => pure (some (.parameter (.column [⟨t.text, t.kind = .quoted⟩])))
    | none => reject
  else if ← mark ":" then
    match ← take? fun t => t.kind = .number || mayName t with
    | some t => pure (some (.placeholder (':' :: t.text)))
    | none => pure none
  else pure none

/-- A name without regard to parameters; `required` lets nearly every token be one. -/
def plainName (required : Bool) : Reader (Option Ident) := do
  match ← quotedName with
  | some i => pure (some i)
  | none =>
    match ← take? fun t => (required && !isReserved t) || mayName t with
    | some t => pure (some ⟨t.text, t.kind = .string⟩)
    | none => pure none

/-- The marks of a temporary table, which belong to no name. -/
def skipHashes (d : Dialect) : Reader Unit := do
  if d = .mssql then
    if ← mark "#" then
      let _ ← mark "#"

/-- A name or a parameter. -/
def nameExpr (d : Dialect) (required : Bool) : Reader (Option Expr) := do
  skipHashes d
  match ← quotedName with
  | some i => pure (some (.column [i]))
  | none =>
    match ← parameter with
    | some e => pure (some e)
    | none =>
      match ← plainName required with
      | some i => pure (some (.column [i]))
      | none => pure none

/-- The word that a name or a parameter goes by. -/
def name (d : Dialect) (required : Bool) : Reader (Option Ident) := do
  match ← nameExpr d required with
  | some (.column [i]) => pure (some i)
  | some e => pure (some ⟨e.label, false⟩)
  | none => pure none

/-- Any token that is not reserved, as a word. -/
def anyWord : Reader (Option Text) := do
  match ← take? (! isReserved ·) with
  | some t => pure (some t.text)
  | none => pure none

/-- A plain word. -/
def plainWord : Reader (Option Text) := do
  match ← take? (·.kind = .word) with
  | some t => pure (some t.text)
  | none => pure none

/-- A string literal. -/
def string : Reader (Option Text) := do
  match ← take? (·.kind = .string) with
  | some t => pure (some t.text)
  | none => pure none

/-- One part of the path of a table: a name, a string or a parameter. -/
def tablePart (d : Dialect) : Reader (Option Ident) := do
  match ← name d false with
  | some i => pure (some i)
  | none =>
    match ← string with
    | some t => pure (some ⟨t, true⟩)
    | none => pure none

/-- The path of a table: what stands in front of its last name, and that name, which must be there. SQL
Server may leave out names between two dots. -/
def tablePath (d : Dialect) : Reader (List Text × Ident) := do
  let first ← tablePart d
  let (qualifier, last) ← grow (fun (qualifier, last) => do
    if ← mark "." then
      let part := (last.map (·.name)).getD []
      pure (some (qualifier ++ [part], ← tablePart d))
    else pure none) ([], first)
  return (qualifier, ← need (pure last))

/-- The last name of a table's path. -/
def tableName (d : Dialect) : Reader Ident := do return (← tablePath d).2

end CodeManifest.Sql.Reader
