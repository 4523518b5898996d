import CodeManifest.Sql.Dialect

namespace CodeManifest.Sql

/-- What a token is. Data types and keywords go by a canonical name in capitals, so that several
spellings can share it. -/
inductive Kind where
  | word
  | quoted
  | string
  | national
  | raw
  | bytes
  | hex
  | bits
  | number
  | keyword (name : String)
  | type (name : String)
  | mark (text : String)
  deriving DecidableEq, Repr

namespace Keyword

/-- Keywords that are their own canonical name. -/
private def plain : List String := [
  "ALL", "AND", "ANTI", "ANY", "ASC", "ASOF", "BEGIN", "BETWEEN", "CACHE", "UNCACHE", "CASE",
  "CHARACTER SET", "CLUSTER BY", "COLLATE", "COLUMN", "COMMIT", "CONNECT BY", "CONSTRAINT", "COPY",
  "CREATE", "CROSS", "CUBE", "CURRENT_DATE", "CURRENT_SCHEMA", "CURRENT_TIME", "CURRENT_TIMESTAMP",
  "CURRENT_USER", "DATABASE", "DEFAULT", "DELETE", "DESC", "DESCRIBE", "DISTINCT",
  "DISTRIBUTE BY", "DIV", "DROP", "ELSE", "END", "ESCAPE", "EXCEPT", "EXECUTE", "EXISTS", "FALSE",
  "FETCH", "FILTER", "FILE", "FIRST", "FULL", "FUNCTION", "FOR", "FOREIGN KEY", "FORMAT", "FROM",
  "GLOB", "GROUP BY", "GROUPING SETS", "HAVING", "ILIKE", "IN", "INDEX", "INNER", "INSERT",
  "INTERSECT", "INTO", "IS", "ISNULL", "JOIN", "KEEP", "KILL", "LATERAL", "LEFT", "LIKE", "LIMIT",
  "LOAD", "LOCALTIME", "LOCALTIMESTAMP", "LOCK", "MERGE", "NAMESPACE", "NATURAL", "NEXT", "NOT",
  "NOTNULL", "OFFSET", "ON", "OR", "XOR", "ORDER BY", "ORDINALITY", "OUT", "OUTER", "OVER",
  "OVERLAPS", "OVERWRITE", "PARTITION", "PERCENT", "PIVOT", "PRAGMA", "PRIMARY KEY", "PROCEDURE",
  "OPERATOR", "QUALIFY", "RANGE", "RECURSIVE", "RENAME", "REPLACE", "RETURNING", "REFERENCES",
  "RIGHT", "ROLLBACK", "ROLLUP", "ROW", "ROWS", "SCHEMA", "SELECT", "SEMI", "SESSION",
  "SESSION_USER", "SET", "SETTINGS", "SHOW", "SIMILAR TO", "SOME", "SORT BY", "START WITH",
  "STRAIGHT_JOIN", "TABLE", "TABLESAMPLE", "THEN", "TRUE", "TRUNCATE", "UNION", "UNNEST",
  "UNPIVOT", "UPDATE", "USE", "USING", "VALUES", "VIEW", "VOLATILE", "WHEN", "WHERE", "WINDOW",
  "WITH", "APPLY", "UNIQUE", "SEQUENCE", "ALTER", "ANALYZE", "COMMENT", "GRANT", "REVOKE",
  "FOR VERSION", "FOR TIMESTAMP"]

/-- Keywords with another canonical name. -/
private def renamed : List (String × String) := [
  ("AS", "ALIAS"), ("AUTOINCREMENT", "AUTO_INCREMENT"), ("AUTO_INCREMENT", "AUTO_INCREMENT"),
  ("PARTITION BY", "PARTITION BY"), ("PARTITIONED BY", "PARTITION BY"),
  ("PARTITIONED_BY", "PARTITION BY"), ("REGEXP", "RLIKE"), ("RLIKE", "RLIKE"),
  ("TEMP", "TEMPORARY"), ("TEMPORARY", "TEMPORARY"), ("CALL", "COMMAND"), ("EXPLAIN", "COMMAND"),
  ("OPTIMIZE", "COMMAND"), ("PREPARE", "COMMAND"), ("VACUUM", "COMMAND")]

/-- The spellings of the data types. -/
private def types : List (String × String) := [
  ("ENUM", "ENUM"), ("GEOGRAPHY", "GEOGRAPHY"), ("GEOMETRY", "GEOMETRY"), ("INET", "INET"),
  ("INTERVAL", "INTERVAL"), ("NULL", "NULL"), ("OBJECT", "OBJECT"), ("UNKNOWN", "UNKNOWN"),
  ("UUID", "UUID"), ("ARRAY", "ARRAY"), ("BIT", "BIT"), ("BOOL", "BOOLEAN"),
  ("BOOLEAN", "BOOLEAN"), ("BYTE", "TINYINT"), ("MEDIUMINT", "MEDIUMINT"), ("INT1", "TINYINT"),
  ("TINYINT", "TINYINT"), ("INT16", "SMALLINT"), ("SHORT", "SMALLINT"), ("SMALLINT", "SMALLINT"),
  ("HUGEINT", "INT128"), ("UHUGEINT", "UINT128"), ("INT2", "SMALLINT"), ("INTEGER", "INT"),
  ("INT", "INT"), ("INT4", "INT"), ("INT32", "INT"), ("INT64", "BIGINT"), ("INT128", "INT128"),
  ("INT256", "INT256"), ("LONG", "BIGINT"), ("BIGINT", "BIGINT"), ("INT8", "TINYINT"),
  ("UINT", "UINT"), ("UINT128", "UINT128"), ("UINT256", "UINT256"), ("DEC", "DECIMAL"),
  ("DECIMAL", "DECIMAL"), ("DECIMAL32", "DECIMAL32"), ("DECIMAL64", "DECIMAL64"),
  ("DECIMAL128", "DECIMAL128"), ("DECIMAL256", "DECIMAL256"), ("DECFLOAT", "DECFLOAT"),
  ("BIGDECIMAL", "BIGDECIMAL"), ("BIGNUMERIC", "BIGDECIMAL"), ("BIGNUM", "BIGNUM"),
  ("LIST", "LIST"), ("MAP", "MAP"), ("NULLABLE", "NULLABLE"), ("NUMBER", "DECIMAL"),
  ("NUMERIC", "DECIMAL"), ("FIXED", "DECIMAL"), ("REAL", "FLOAT"), ("FLOAT", "FLOAT"),
  ("FLOAT4", "FLOAT"), ("FLOAT8", "DOUBLE"), ("DOUBLE", "DOUBLE"), ("DOUBLE PRECISION", "DOUBLE"),
  ("JSON", "JSON"), ("JSONB", "JSONB"), ("CHAR", "CHAR"), ("CHARACTER", "CHAR"),
  ("CHAR VARYING", "VARCHAR"), ("CHARACTER VARYING", "VARCHAR"), ("NCHAR", "NCHAR"),
  ("VARCHAR", "VARCHAR"), ("VARCHAR2", "VARCHAR"), ("NVARCHAR", "NVARCHAR"),
  ("NVARCHAR2", "NVARCHAR"), ("BPCHAR", "BPCHAR"), ("STR", "TEXT"), ("STRING", "TEXT"),
  ("TEXT", "TEXT"), ("LONGTEXT", "LONGTEXT"), ("MEDIUMTEXT", "MEDIUMTEXT"),
  ("TINYTEXT", "TINYTEXT"), ("CLOB", "TEXT"), ("LONGVARCHAR", "TEXT"), ("BINARY", "BINARY"),
  ("BLOB", "VARBINARY"), ("LONGBLOB", "LONGBLOB"), ("MEDIUMBLOB", "MEDIUMBLOB"),
  ("TINYBLOB", "TINYBLOB"), ("BYTEA", "VARBINARY"), ("VARBINARY", "VARBINARY"), ("TIME", "TIME"),
  ("TIMETZ", "TIMETZ"), ("TIME_NS", "TIME_NS"), ("TIMESTAMP", "TIMESTAMP"),
  ("TIMESTAMPTZ", "TIMESTAMPTZ"), ("TIMESTAMPLTZ", "TIMESTAMPLTZ"),
  ("TIMESTAMP_LTZ", "TIMESTAMPLTZ"), ("TIMESTAMPNTZ", "TIMESTAMPNTZ"),
  ("TIMESTAMP_NTZ", "TIMESTAMPNTZ"), ("DATE", "DATE"), ("DATETIME", "DATETIME"),
  ("INT4RANGE", "INT4RANGE"), ("INT4MULTIRANGE", "INT4MULTIRANGE"), ("INT8RANGE", "INT8RANGE"),
  ("INT8MULTIRANGE", "INT8MULTIRANGE"), ("NUMRANGE", "NUMRANGE"),
  ("NUMMULTIRANGE", "NUMMULTIRANGE"), ("TSRANGE", "TSRANGE"), ("TSMULTIRANGE", "TSMULTIRANGE"),
  ("TSTZRANGE", "TSTZRANGE"), ("TSTZMULTIRANGE", "TSTZMULTIRANGE"), ("DATERANGE", "DATERANGE"),
  ("DATEMULTIRANGE", "DATEMULTIRANGE"), ("VECTOR", "VECTOR"), ("STRUCT", "STRUCT"),
  ("VARIANT", "VARIANT"), ("USER-DEFINED", "USERDEFINED")]

private def common : List (String × Kind) :=
  plain.map (fun k => (k, .keyword k)) ++ renamed.map (fun (k, n) => (k, .keyword n)) ++
    types.map (fun (k, n) => (k, .type n))

/-- What a dialect adds to the common words, or reads in another way. -/
private def own : Dialect → List (String × Kind)
  | .mysql => [
    ("BLOB", .type "BLOB"), ("CHARSET", .keyword "CHARACTER SET"),
    ("EXPLAIN", .keyword "DESCRIBE"), ("FORCE", .keyword "FORCE"), ("IGNORE", .keyword "IGNORE"),
    ("KEY", .keyword "KEY"), ("LOCK TABLES", .keyword "COMMAND"),
    ("MEMBER OF", .keyword "MEMBER OF"), ("MOD", .keyword "MOD"),
    ("SEPARATOR", .keyword "SEPARATOR"), ("SERIAL", .type "SERIAL"), ("SIGNED", .type "BIGINT"),
    ("SIGNED INTEGER", .type "BIGINT"), ("SOUNDS LIKE", .keyword "SOUNDS LIKE"),
    ("START", .keyword "BEGIN"), ("TIMESTAMP", .type "TIMESTAMPTZ"),
    ("UNLOCK TABLES", .keyword "COMMAND"), ("UNSIGNED", .type "UBIGINT"),
    ("UNSIGNED INTEGER", .type "UBIGINT"), ("YEAR", .type "YEAR"),
    ("_ASCII", .keyword "INTRODUCER"), ("_BINARY", .keyword "INTRODUCER"),
    ("_LATIN1", .keyword "INTRODUCER"), ("_UTF8", .keyword "INTRODUCER"),
    ("_UTF8MB3", .keyword "INTRODUCER"), ("_UTF8MB4", .keyword "INTRODUCER")]
  | .postgresql => [
    ("BIGSERIAL", .type "BIGSERIAL"), ("CSTRING", .type "PSEUDO_TYPE"),
    ("DECLARE", .keyword "COMMAND"), ("DO", .keyword "COMMAND"), ("EXEC", .keyword "COMMAND"),
    ("HSTORE", .type "HSTORE"), ("INT8", .type "BIGINT"), ("MONEY", .type "MONEY"),
    ("NAME", .type "NAME"), ("OID", .type "OBJECT_IDENTIFIER"), ("ONLY", .keyword "ONLY"),
    ("POINT", .type "POINT"), ("REFRESH", .keyword "COMMAND"), ("REINDEX", .keyword "COMMAND"),
    ("RESET", .keyword "COMMAND"), ("SERIAL", .type "SERIAL"),
    ("SMALLSERIAL", .type "SMALLSERIAL"), ("REGCLASS", .type "OBJECT_IDENTIFIER"),
    ("REGCOLLATION", .type "OBJECT_IDENTIFIER"), ("REGCONFIG", .type "OBJECT_IDENTIFIER"),
    ("REGDICTIONARY", .type "OBJECT_IDENTIFIER"), ("REGNAMESPACE", .type "OBJECT_IDENTIFIER"),
    ("REGOPER", .type "OBJECT_IDENTIFIER"), ("REGOPERATOR", .type "OBJECT_IDENTIFIER"),
    ("REGPROC", .type "OBJECT_IDENTIFIER"), ("REGPROCEDURE", .type "OBJECT_IDENTIFIER"),
    ("REGROLE", .type "OBJECT_IDENTIFIER"), ("REGTYPE", .type "OBJECT_IDENTIFIER"),
    ("FLOAT", .type "DOUBLE"), ("XML", .type "XML"), ("VARIADIC", .keyword "VARIADIC"),
    ("INOUT", .keyword "INOUT"), ("DIV", .word)]
  | .sqlite => [
    ("FLOAT", .type "DOUBLE"), ("REAL", .type "DOUBLE"), ("ATTACH", .keyword "ATTACH"),
    ("DETACH", .keyword "DETACH"), ("MATCH", .keyword "MATCH")]
  | .mssql => [
    ("CLUSTERED INDEX", .keyword "INDEX"), ("DATETIME2", .type "DATETIME2"),
    ("DATETIMEOFFSET", .type "TIMESTAMPTZ"), ("DECLARE", .keyword "DECLARE"),
    ("EXEC", .keyword "EXECUTE"), ("FOR SYSTEM_TIME", .keyword "FOR TIMESTAMP"),
    ("GO", .keyword "COMMAND"), ("IMAGE", .type "IMAGE"), ("MONEY", .type "MONEY"),
    ("NONCLUSTERED INDEX", .keyword "INDEX"), ("NTEXT", .type "TEXT"),
    ("OPTION", .keyword "OPTION"), ("OUTPUT", .keyword "RETURNING"),
    ("PRINT", .keyword "COMMAND"), ("PROC", .keyword "PROCEDURE"),
    ("ROWVERSION", .type "ROWVERSION"), ("SMALLDATETIME", .type "SMALLDATETIME"),
    ("SMALLMONEY", .type "SMALLMONEY"), ("SQL_VARIANT", .type "VARIANT"),
    ("SYSTEM_USER", .keyword "CURRENT_USER"), ("TOP", .keyword "TOP"),
    ("TIMESTAMP", .type "ROWVERSION"), ("TINYINT", .type "UTINYINT"),
    ("UNIQUEIDENTIFIER", .type "UUID"), ("UPDATE STATISTICS", .keyword "COMMAND"),
    ("XML", .type "XML")]

/-- All words of a dialect, its own readings first. -/
private def table : Dialect → List (String × Kind)
  | .mysql => mysql
  | .postgresql => postgresql
  | .sqlite => sqlite
  | .mssql => mssql
where
  mysql := own .mysql ++ common
  postgresql := own .postgresql ++ common
  sqlite := own .sqlite ++ common
  mssql := own .mssql ++ common

/-- What a single word is in a dialect. -/
def kind (d : Dialect) (w : Text) : Kind :=
  ((table d).lookup (String.ofList (Text.asciiUpper w))).getD .word

/-- The phrases with one more, right behind those that are no shorter. -/
private def insertPhrase (e : Text × Kind) : List (Text × Kind) → List (Text × Kind)
  | [] => [e]
  | f :: fs => if f.1.length < e.1.length then e :: f :: fs else f :: insertPhrase e fs

private def phrasesOf (d : Dialect) : List (Text × Kind) :=
  let many := (table d).filterMap fun (k, n) =>
    if k.toList.contains ' ' || k.toList.contains '-' then some (k.toList, n) else none
  many.foldl (fun fs e => insertPhrase e fs) []

/-- The keywords of a dialect that are made of several words, longest first. -/
def phrases : Dialect → List (Text × Kind)
  | .mysql => mysql
  | .postgresql => postgresql
  | .sqlite => sqlite
  | .mssql => mssql
where
  mysql := phrasesOf .mysql
  postgresql := phrasesOf .postgresql
  sqlite := phrasesOf .sqlite
  mssql := phrasesOf .mssql

/-- The marks of three characters, then those of two. -/
private def commonMarks : List String := [
  "?::", "<=>", "->>", "#>>", "<->", "~~~", "~~*", "&<", "&>", "==", "::", "||", "|>", ">=", "<=",
  "<>", "!=", ":=", "->", "=>", "#>", "&&", "??", "~~", "~*"]

/-- The marks of more than one character, longest first. -/
def marks : Dialect → List String
  | .mysql => mysql
  | .postgresql => postgresql
  | .sqlite => commonMarks
  | .mssql => commonMarks
where
  mysql := commonMarks ++ ["@@"]
  postgresql := "||/" :: commonMarks ++ ["@@", "@>", "<@", "?&", "?|", "#-", "|/"]

/-- The characters that are a token by themselves and end a word. -/
def singleMarks : Text := "()[]{}&^:,-.=><%!/\\+;*~?@#|$'`\""

/-- Single marks that may stand inside a word. -/
def wordMarks : Dialect → Text
  | .mysql => "$"
  | .postgresql => "$"
  | .sqlite => ""
  | .mssql => "@$#"

/-- A keyword with which a statement is kept as it is. -/
def isCommand (d : Dialect) : Kind → Bool
  | .keyword k =>
    ["COMMAND", "FETCH", "RENAME"].contains k || (k = "SHOW" && d ≠ .mysql) ||
      (k = "EXECUTE" && d ≠ .mssql) || (k = "REPLACE" && (d = .mysql || d = .sqlite)) ||
      (k = "END" && d = .mssql)
  | _ => false

end Keyword

end CodeManifest.Sql
