import CodeManifest.Sql.Read.Query

namespace CodeManifest.Sql.Reader

variable (d : Dialect) (r : Deeper)

/-- Properties that stand by themselves. -/
private def flags : List String := [
  "DETERMINISTIC", "DYNAMIC", "EMPTY", "EXTERNAL", "GLOBAL", "HEAP", "ICEBERG", "IMMUTABLE",
  "MATERIALIZED", "MULTISET", "SECURE", "STABLE", "STREAMING", "STRICT", "TEMP", "TEMPORARY",
  "TRANSIENT", "UNLOGGED", "VOLATILE"]

/-- Properties with a value behind them, with or without an equals sign. -/
private def assigned : List String := [
  "ALGORITHM", "AUTO_INCREMENT", "COLLATE", "COMMENT", "DISTSTYLE", "ENGINE", "EXECUTE", "FORMAT",
  "LANGUAGE", "LOCATION", "ROW_FORMAT", "SHARING", "USING"]

/-- All words that begin a property. -/
def propertyWords : List String :=
  flags ++ assigned ++ [
    "CHARACTER SET", "CHARSET", "CHECKSUM", "CLUSTER BY", "CLUSTERED", "CONTAINS", "INHERITS",
    "LIKE", "MODIFIES", "NO", "ON", "ORDER BY", "PARTITION", "PARTITION BY", "PARTITIONED BY",
    "PARTITIONED_BY", "PRIMARY KEY", "READS", "RETURNS", "SET", "SYSTEM_VERSIONING", "WITH"] ++
    (if d = .postgresql then ["TABLESPACE"] else []) ++
    (if d = .sqlite then ["VIRTUAL"] else []) ++
    (if d = .mysql then ["LOCK"] else [])

/-- The value of an assigned property. -/
def propertyValue : Reader Unit := do
  let _ ← mark "="
  let _ ← keyword "ALIAS"
  let _ ← need (field d r false)

/-- A word or a string. -/
def wordOrString : Reader (Option Text) := either plainWord string

/-- One partition with the values that belong in it. -/
def partitionValues (range : Bool) : Reader (Option Unit) := do
  let _ ← words ["PARTITION"]
  let _ ← name d true
  let bounded ← words (if range then ["VALUES", "LESS", "THAN"] else ["VALUES", "IN"])
  if bounded || !range then
    let _ ← wrappedCsv (expression d r)
  return some ()

/-- How the rows of a table are spread over partitions. -/
def partition : Reader (Option Unit) := do
  if d = .mysql then
    match ← wordOf? ["RANGE", "LIST"] with
    | none => return none
    | some shape =>
      let _ ← wrappedCsv (expression d r)
      let start ← get
      if ← words ["(", "PARTITION"] then
        set start
        let _ ← wrappedCsv (partitionValues d r (shape = "RANGE"))
      return some ()
  else
    let _ ← mark "="
    if ← seesMark "(" then wrapped toClosing
    else
      let e ← need (field d r false)
      let _ ← brackets r (some e)
    return some ()

/-- Whether a table keeps its former rows, and where. -/
def versioning : Reader Unit := do
  let _ ← mark "="
  if !(← words ["OFF"]) then
    let _ ← keyword "ON"
    if ← mark "(" then
      let _ ← many do
        let found ← (do
          if ← words ["HISTORY_TABLE", "="] then
            let _ ← tableName d
            return true
          else if ← words ["DATA_CONSISTENCY_CHECK", "="] then
            let _ ← anyWord
            return true
          else if ← words ["HISTORY_RETENTION_PERIOD", "="] then
            let _ ← takes (·.kind = .number)
            let _ ← anyWord
            return true
          else return false)
        return if (← mark ",") || found then some () else none
      must (mark ")")

/-- A table to take the columns of, and what to take with them. -/
def likeTable : Reader Unit := do
  let _ ← tableName d
  if ← seesMark "(" then wrapped toClosing
  let _ ← many do
    match ← wordOf? ["INCLUDING", "EXCLUDING"] with
    | none => return none
    | some _ => return some (← need (name d true))

/-- What follows the first word of a property. -/
def propertyBody (w : String) (inner : Reader (Option Unit)) : Reader (Option Unit) := do
  if flags.contains w then
    if w = "GLOBAL" || w = "TRANSIENT" then
      let _ ← keyword "TEMPORARY"
    return some ()
  else if assigned.contains w then
    propertyValue d r
    return some ()
  else match w with
    | "CHARACTER SET" | "CHARSET" =>
      let _ ← mark "="
      let _ ← need wordOrString
      return some ()
    | "CLUSTER BY" | "ORDER BY" =>
      let _ ← csv (ordered d r)
      return some ()
    | "CHECKSUM" =>
      let _ ← mark "="
      if !(← keyword "ON") then
        let _ ← words ["OFF"]
      let _ ← keyword "DEFAULT"
      return some ()
    | "CLUSTERED" =>
      let _ ← words ["BY"]
      wrapped toClosing
      return some ()
    | "CONTAINS" => return if ← words ["SQL"] then some () else none
    | "MODIFIES" | "READS" => return if ← words ["SQL", "DATA"] then some () else none
    | "NO" =>
      if ← words ["PRIMARY", "INDEX"] then return some ()
      else return if ← words ["SQL"] then some () else none
    | "INHERITS" | "PRIMARY KEY" =>
      wrapped toClosing
      return some ()
    | "LIKE" =>
      likeTable d
      return some ()
    | "LOCK" | "RETURNS" =>
      propertyValue d r
      return some ()
    | "ON" =>
      if ← words ["COMMIT", "PRESERVE", "ROWS"] then return some ()
      else if ← words ["COMMIT", "DELETE", "ROWS"] then return some ()
      else
        let _ ← need (name d true)
        if ← seesMark "(" then wrapped toClosing
        return some ()
    | "PARTITION" =>
      if ← words ["OF"] then
        let _ ← tableName d
        if ← keyword "DEFAULT" then return some ()
        must (keyword "FOR")
        must (keyword "VALUES")
        let _ ← many do
          let found ← wordOf? ["FROM", "TO", "IN", "WITH"]
          if found.isSome then wrapped toClosing
          return found
        return some ()
      else return none
    | "PARTITION BY" | "PARTITIONED BY" | "PARTITIONED_BY" => partition d r
    | "SET" =>
      if d = .postgresql then
        let _ ← csv (expression d r)
      return some ()
    | "SYSTEM_VERSIONING" =>
      versioning d
      return some ()
    | "TABLESPACE" =>
      let _ ← need (name d true)
      return some ()
    | "WITH" =>
      if ← words ["(", "SYSTEM_VERSIONING"] then
        versioning d
        must (mark ")")
      else if ← seesMark "(" then
        let _ ← wrappedCsv inner
      else if ← words ["DATA"] then pure ()
      else if ← words ["NO", "DATA"] then pure ()
      else return none
      return some ()
    | _ => return some ()

/-- The options of a sequence that stand by themselves. -/
private def sequenceFlags : List String := [
  "SESSION", "GLOBAL", "KEEP", "NOKEEP", "ORDER", "NOORDER", "NOCACHE", "CYCLE", "NOCYCLE",
  "NOMINVALUE", "NOMAXVALUE", "NOSCALE", "NOSHARD"]

/-- An option of a sequence. -/
def sequenceOption : Reader Bool := do
  if ← words ["INCREMENT"] then
    let _ ← words ["BY"]
    let _ ← mark "="
    let _ ← bitwise d r
    return true
  else if (← wordOf? ["MINVALUE", "MAXVALUE"]).isSome then
    let _ ← bitwise d r
    return true
  else if (← keyword "START WITH") || (← words ["START"]) then
    let _ ← mark "="
    let _ ← bitwise d r
    return true
  else if ← words ["CACHE"] then
    let _ ← takes (·.kind = .number)
    return true
  else if ← words ["OWNED", "BY"] then
    if !(← words ["NONE"]) then
      let _ ← column d r
    return true
  else if ← words ["SCALE", "EXTEND"] then return true
  else if ← words ["SCALE", "NOEXTEND"] then return true
  else if ← words ["SHARD", "EXTEND"] then return true
  else if ← words ["SHARD", "NOEXTEND"] then return true
  else return (← wordOf? sequenceFlags).isSome

/-- Options of a sequence. They may stand among any properties, and a comma alone counts as one. -/
def sequenceOptions : Reader (Option Unit) := do
  let found ← many do
    let comma ← mark ","
    return if (← sequenceOption d r) || comma then some () else none
  return if found.isEmpty then none else some ()

/-- Options of a sequence, or a property under any name with an equals sign and a value. -/
def namedProperty : Reader (Option Unit) := either (sequenceOptions d r) <| attempt do
  match ← column d r with
  | none => return none
  | some _ =>
    if !(← mark "=") then return none
    match ← bitwise d r with
    | some _ => return some ()
    | none =>
      let _ ← need anyWord
      return some ()

/-- A property inside the parentheses of another. -/
def innerProperty : Reader (Option Unit) := do
  match ← wordOf? (propertyWords d) with
  | some w => propertyBody d r w (return none)
  | none => namedProperty d r

/-- One property, perhaps with `DEFAULT` in front. -/
def property : Reader (Option Unit) := attempt do
  if let some w ← wordOf? (propertyWords d) then
    return ← propertyBody d r w (innerProperty d r)
  if ← keyword "DEFAULT" then
    if let some w ← wordOf? (propertyWords d) then
      return ← propertyBody d r w (innerProperty d r)
  namedProperty d r

/-- Properties one after the other, with no commas between them. -/
def properties : Reader Nat := do return (← many (property d r)).length

end CodeManifest.Sql.Reader
