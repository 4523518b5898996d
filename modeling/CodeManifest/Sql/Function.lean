import CodeManifest.Sql.Dialect

namespace CodeManifest.Sql.Function

/-- Functions that are known under their own name. -/
private def plain : List String := [
  "ABS", "ACOS", "ANY_VALUE", "ARRAY", "ARRAY_AGG", "ARRAY_CONCAT", "ASCII", "ASIN", "ATAN",
  "ATAN2", "AVG", "CBRT", "CEIL", "CHR", "COALESCE", "CONCAT", "CONCAT_WS", "COS", "COT", "COUNT",
  "DATE", "DATE_ADD", "DATE_DIFF", "DATE_SUB", "DATE_TRUNC", "DATETIME", "DAY", "DAY_OF_MONTH",
  "DAY_OF_WEEK", "DAY_OF_YEAR", "DEGREES", "EXP", "EXTRACT", "FLOOR", "GREATEST", "GROUP_CONCAT",
  "HEX", "HOUR", "IF", "INITCAP", "JSON_ARRAY", "JSON_EXTRACT", "JSON_OBJECT", "LAST_DAY",
  "LEAST", "LEFT", "LENGTH", "LN", "LOG", "LOWER", "MAX", "MD5", "MIN", "MINUTE", "MOD", "MONTH",
  "NULLIF", "POWER", "QUARTER", "RADIANS", "RAND", "REGEXP_LIKE", "REPEAT", "REPLACE", "RIGHT",
  "ROUND", "ROW_NUMBER", "SECOND", "SHA", "SHA2", "SIGN", "SIN", "SOUNDEX", "SPACE", "SPLIT",
  "SQRT", "STDDEV", "STR_POSITION", "STR_TO_DATE", "STRING_AGG", "SUBSTRING", "SUM", "TAN", "TIME",
  "TIMESTAMP", "TO_CHAR", "TRANSLATE", "TRIM", "UNHEX", "UNNEST", "UPPER", "UUID", "VARIANCE",
  "WEEK", "YEAR", "CURRENT_DATE", "CURRENT_TIME", "CURRENT_TIMESTAMP", "CURRENT_USER"]

/-- Other names for a known function. -/
private def renamed : List (String × String) := [
  ("LCASE", "LOWER"), ("UCASE", "UPPER"), ("IFNULL", "COALESCE"), ("NVL", "COALESCE"),
  ("LEN", "LENGTH"), ("CHAR_LENGTH", "LENGTH"), ("CHARACTER_LENGTH", "LENGTH"),
  ("SUBSTR", "SUBSTRING"), ("CEILING", "CEIL"), ("POW", "POWER"), ("RANDOM", "RAND"),
  ("GEN_RANDOM_UUID", "UUID"), ("GENERATE_UUID", "UUID"), ("UUID_STRING", "UUID"),
  ("SHA1", "SHA"), ("SIGNUM", "SIGN"), ("DATEDIFF", "DATE_DIFF"), ("IIF", "IF"),
  ("DAYOFMONTH", "DAY_OF_MONTH"), ("DAYOFWEEK", "DAY_OF_WEEK"), ("DAYOFYEAR", "DAY_OF_YEAR")]

private def own : Dialect → List (String × String)
  | .mysql => [
    ("NOW", "CURRENT_TIMESTAMP"), ("CURDATE", "CURRENT_DATE"), ("CURTIME", "CURRENT_TIME")]
  | .postgresql => [("NOW", "CURRENT_TIMESTAMP")]
  | .sqlite => []
  | .mssql => [
    ("GETDATE", "CURRENT_TIMESTAMP"), ("SYSDATETIME", "CURRENT_TIMESTAMP"), ("NEWID", "UUID"),
    ("SUSER_NAME", "CURRENT_USER"), ("SUSER_SNAME", "CURRENT_USER"),
    ("SYSTEM_USER", "CURRENT_USER")]

/-- The canonical name of a function of a dialect, if it is known. -/
def canonical? (d : Dialect) (name : String) : Option String :=
  ((own d ++ renamed).lookup name).orElse fun _ => if plain.contains name then some name else none

/-- How a dialect writes a call of a known function, given its written arguments. -/
def render (d : Dialect) (name : String) (args : List Text) : Text :=
  let call := fun (n : Text) => n ++ ['('] ++ Text.join ", " args ++ [')']
  match name, d with
  | "CURRENT_TIMESTAMP", .postgresql | "CURRENT_TIMESTAMP", .sqlite => "CURRENT_TIMESTAMP"
  | "CURRENT_TIMESTAMP", .mssql | "CURRENT_DATE", .mssql => call "GETDATE"
  | "CURRENT_DATE", _ => "CURRENT_DATE"
  | "CURRENT_TIME", .sqlite => "CURRENT_TIME"
  | "CURRENT_USER", .postgresql => "CURRENT_USER"
  | "UUID", .postgresql => "GEN_RANDOM_UUID()"
  | "UUID", .mssql => "NEWID()"
  | "RAND", .postgresql | "RAND", .sqlite => call "RANDOM"
  | "LENGTH", .mssql => call "LEN"
  | "CONCAT", .sqlite => Text.join " || " args
  | "LOCALTIME", _ | "LOCALTIMESTAMP", _ | "SESSION_USER", _ | "CURRENT_SCHEMA", _ =>
    if args.isEmpty then name else call name
  | _, _ => call name

end CodeManifest.Sql.Function
