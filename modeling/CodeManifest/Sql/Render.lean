import CodeManifest.Sql.Expr
import CodeManifest.Sql.Function
import CodeManifest.Text.LowerCase

namespace CodeManifest.Sql

/-- A name as the dialect quotes it: the closing mark inside it is doubled. -/
def Ident.render (d : Dialect) (i : Ident) : Text :=
  if !i.quoted then i.name
  else
    let (l, r) := match d with
      | .mysql => ('`', '`')
      | .mssql => ('[', ']')
      | _ => ('"', '"')
    l :: i.name.flatMap (fun c => if c = r then [c, c] else [c]) ++ [r]

/-- The backslash sequence of a control character. -/
def backslashed (c : Char) : Text :=
  match c with
  | '\x07' => ['\\', 'a']
  | '\x08' => ['\\', 'b']
  | '\x0c' => ['\\', 'f']
  | '\n' => ['\\', 'n']
  | '\r' => ['\\', 'r']
  | '\t' => ['\\', 't']
  | '\x0b' => ['\\', 'v']
  | '\\' => ['\\', '\\']
  | c => [c]

/-- A string literal. Only MySQL gives backslash sequences a meaning. -/
def renderString (d : Dialect) (t : Text) : Text :=
  let inside := t.flatMap fun c =>
    if c = '\'' then ['\'', '\''] else if d = .mysql then backslashed c else [c]
  '\'' :: inside ++ ['\'']

/-- The spelling of a data type where a dialect has no type of the canonical name. -/
def typeSpelling (d : Dialect) (name : String) : String :=
  let shared := match name with
    | "NCHAR" => "CHAR"
    | "NVARCHAR" => "VARCHAR"
    | "ROWVERSION" => "VARBINARY"
    | _ => name
  match d with
  | .mysql =>
    match name with
    | "UBIGINT" => "BIGINT" | "UINT" => "INT" | "UMEDIUMINT" => "MEDIUMINT"
    | "USMALLINT" => "SMALLINT" | "UTINYINT" => "TINYINT" | "UDECIMAL" => "DECIMAL"
    | "UDOUBLE" => "DOUBLE"
    | "DATETIME2" | "SMALLDATETIME" | "TIMESTAMP" | "TIMESTAMPNTZ" => "DATETIME"
    | "TIMESTAMPTZ" | "TIMESTAMPLTZ" => "TIMESTAMP"
    | _ => shared
  | .postgresql =>
    match name with
    | "TINYINT" => "SMALLINT" | "FLOAT" => "REAL" | "DOUBLE" => "DOUBLE PRECISION"
    | "BINARY" | "VARBINARY" | "ROWVERSION" | "BLOB" => "BYTEA"
    | "DATETIME" | "TIMESTAMPNTZ" | "DATETIME2" | "SMALLDATETIME" => "TIMESTAMP"
    | "MEDIUMTEXT" | "LONGTEXT" | "TINYTEXT" => "TEXT"
    | _ => shared
  | .sqlite =>
    match name with
    | "BOOLEAN" | "TINYINT" | "SMALLINT" | "INT" | "BIGINT" => "INTEGER"
    | "FLOAT" | "DOUBLE" | "DECIMAL" => "REAL"
    | "CHAR" | "NCHAR" | "VARCHAR" | "NVARCHAR" => "TEXT"
    | "BINARY" | "VARBINARY" => "BLOB"
    | "MEDIUMTEXT" | "LONGTEXT" | "TINYTEXT" => "TEXT"
    | "DATETIME2" | "SMALLDATETIME" => "TIMESTAMP"
    | _ => shared
  | .mssql =>
    match name with
    | "BOOLEAN" => "BIT" | "DECIMAL" => "NUMERIC" | "DOUBLE" => "FLOAT" | "INT" => "INTEGER"
    | "TEXT" | "MEDIUMTEXT" | "LONGTEXT" | "TINYTEXT" => "VARCHAR(MAX)"
    | "TIMESTAMP" | "TIMESTAMPNTZ" => "DATETIME2"
    | "TIMESTAMPTZ" | "TIMESTAMPLTZ" => "DATETIMEOFFSET"
    | "UTINYINT" => "TINYINT" | "VARIANT" => "SQL_VARIANT" | "UUID" => "UNIQUEIDENTIFIER"
    | "ROWVERSION" => "ROWVERSION" | "NCHAR" => "NCHAR" | "NVARCHAR" => "NVARCHAR"
    | _ => name

/-- MySQL casts to few types. -/
def castName (d : Dialect) (name : String) : String :=
  if d ≠ .mysql then name
  else match name with
    | "LONGTEXT" | "LONGBLOB" | "MEDIUMBLOB" | "MEDIUMTEXT" | "TEXT" | "TINYBLOB" | "TINYTEXT"
    | "VARCHAR" => "CHAR"
    | "BIGINT" | "BOOLEAN" | "INT" | "SMALLINT" | "TINYINT" | "MEDIUMINT" => "SIGNED"
    | "UBIGINT" | "UINT" | "USMALLINT" | "UTINYINT" | "UMEDIUMINT" => "UNSIGNED"
    | _ => name

/-- A list of parameters in parentheses, nothing for none. -/
def parenthesised (args : List Text) : Text :=
  if args.isEmpty then [] else '(' :: Text.join ", " args ++ [')']

mutual

/-- The text of an expression in a dialect. -/
def Expr.render (d : Dialect) : Expr → Text
  | .null => "NULL"
  | .bool b => if d = .mssql then (if b then "1" else "0") else if b then "TRUE" else "FALSE"
  | .string t => renderString d t
  | .number t => t
  | .national t => 'N' :: renderString d t
  | .raw t =>
    let t := if d = .mysql then t.flatMap (fun c => if c = '\\' then ['\\', '\\'] else [c]) else t
    '\'' :: t.flatMap (fun c => if c = '\'' then ['\'', '\''] else [c]) ++ ['\'']
  | .hex t => if d = .mssql then '0' :: 'x' :: t else 'x' :: '\'' :: t ++ ['\'']
  | .bits t => "b'" ++ t ++ "'"
  | .bytes t => "e'" ++ t ++ "'"
  | .column path => Text.join "." (path.map (Ident.render d))
  | .variable t => t
  | .star => "*"
  | .placeholder t => t
  | .parameter e => '@' :: e.render d
  | .call n args =>
    (if n.quoted then n.render d else Text.asciiUpper n.name) ++ ['('] ++
      Text.join ", " (renderAll d args) ++ [')']
  | .known n args => Function.render d n (renderAll d args)
  | .cast e t =>
    match d, t with
    | .mysql, .base "TIMESTAMPTZ" _ | .mysql, .base "TIMESTAMPLTZ" _ =>
      "TIMESTAMP(".toList ++ e.render d ++ [')']
    | _, _ => "CAST(".toList ++ e.render d ++ " AS ".toList ++ t.render d true ++ [')']
  | .neg e =>
    let t := e.render d
    if t.head? = some '-' then '-' :: ' ' :: t else '-' :: t
  | .unary op e => op ++ e.render d
  | .binary op l r =>
    if op = "AT TIME ZONE" && d = .mysql then l.render d
    else if op = "||" && d = .mssql then l.render d ++ " + " ++ r.render d
    else l.render d ++ [' '] ++ op ++ [' '] ++ r.render d
  | .after e op => e.render d ++ [' '] ++ op
  | .between e lo hi => e.render d ++ " BETWEEN " ++ lo.render d ++ " AND " ++ hi.render d
  | .member e items => e.render d ++ " IN (" ++ Text.join ", " (renderAll d items) ++ ")"
  | .paren e => '(' :: e.render d ++ [')']
  | .tuple items => '(' :: Text.join ", " (renderAll d items) ++ [')']
  | .array items =>
    if d = .postgresql then "ARRAY[" ++ Text.join ", " (renderAll d items) ++ "]"
    else "ARRAY(" ++ Text.join ", " (renderAll d items) ++ ")"
  | .element e items => e.render d ++ ['['] ++ Text.join ", " (renderAll d items) ++ [']']
  | .dot e f => e.render d ++ ['.'] ++ f.render d
  | .whenThen c v => "WHEN " ++ c.render d ++ " THEN " ++ v.render d
  | .choice s cases o =>
    let subject := (renderAll d s).flatMap (' ' :: ·)
    let arms := (renderAll d cases).flatMap (' ' :: ·)
    let rest := (renderAll d o).flatMap (" ELSE ".toList ++ ·)
    "CASE".toList ++ subject ++ arms ++ rest ++ " END".toList
  | .interval v unit =>
    "INTERVAL" ++ (renderAll d v).flatMap (' ' :: ·) ++ (if unit.isEmpty then [] else ' ' :: unit)
  | .query t => '(' :: t ++ [')']
  | .alias e n => e.render d ++ " AS " ++ n.render d

/-- The texts of several expressions. -/
def renderAll (d : Dialect) : List Expr → List Text
  | [] => []
  | e :: es => e.render d :: renderAll d es

/-- The text of a data type in a dialect. `cast` tells whether a value is cast to it. -/
def DataType.render (d : Dialect) (cast : Bool) : DataType → Text
  | .base n params =>
    let n := if cast then castName d n else n
    (typeSpelling d n).toList ++ parenthesised (renderAll d params)
  | .array t =>
    if d = .postgresql then t.render d false ++ "[]" else "ARRAY<" ++ t.render d false ++ ">"
  | .nested n items => n ++ ['<'] ++ Text.join ", " (renderTypes d items) ++ ['>']
  | .user path params =>
    Text.join "." (path.map fun i => if d = .postgresql then i.render d else i.name) ++
      parenthesised (renderAll d params)
  | .span unit => "INTERVAL " ++ unit
  | .object n => n

/-- The texts of several data types. -/
def renderTypes (d : Dialect) : List DataType → List Text
  | [] => []
  | t :: ts => t.render d false :: renderTypes d ts

end

/-- Types that no schema can name. -/
inductive Untitled where
  /-- a time span of one unit -/
  | span
  /-- a type that the grammar knows by its text alone -/
  | object
  deriving DecidableEq, Repr

/-- How the failure to name a type reads. -/
def Untitled.message : Untitled → Text
  | span => "'Interval' object has no attribute 'value'"
  | object => "'str' object has no attribute 'value'"

/-- The canonical name of a type in small letters, as a schema gives it. A type of the user's own
keeps its path, in which only PostgreSQL keeps the quotes. -/
def DataType.title (d : Dialect) : DataType → Except Untitled Text
  | .base n _ => .ok (Text.lower n)
  | .array _ => .ok "array"
  | .nested n _ => .ok (Text.lower n)
  | .user path _ =>
    .ok (Text.lower (Text.join "." (path.map fun i =>
      if d = .postgresql then i.render d else i.name)))
  | .span _ => .error .span
  | .object _ => .error .object

end CodeManifest.Sql
