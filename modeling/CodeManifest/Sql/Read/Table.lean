import CodeManifest.Sql.Read.Property
import CodeManifest.Sql.Statement

namespace CodeManifest.Sql.Reader

variable (d : Dialect) (r : Deeper)

/-- A constraint, which may turn out to be one on a column or one on a table. -/
inductive Found where
  | column (constraint : ColumnConstraint)
  | table (constraint : TableConstraint)

namespace Found

def other : Found := .column .other

/-- Read behind a column, a constraint on the table says nothing about the column. -/
def asColumn : Found → ColumnConstraint
  | .column c => c
  | .table _ => .other

/-- Read among the elements of a table, a constraint on a column says nothing. -/
def asTable : Found → TableConstraint
  | .column _ => .other
  | .table t => t

end Found

/-- The keywords that begin a constraint. -/
def constraintWords : List String := [
  "AUTOINCREMENT", "AUTO_INCREMENT", "CASESPECIFIC", "CHARACTER SET", "CHECK", "COLLATE", "COMMENT",
  "COMPRESS", "CLUSTERED", "NONCLUSTERED", "DEFAULT", "ENCODE", "EPHEMERAL", "EXCLUDE",
  "FOREIGN KEY", "FORMAT", "GENERATED", "IDENTITY", "INLINE", "LIKE", "NOT", "NULL", "ON", "PATH",
  "PERIOD", "PRIMARY KEY", "REFERENCES", "TITLE", "TTL", "UNIQUE", "UPPERCASE", "WITH", "BUCKET",
  "TRUNCATE"] ++
  (if d = .mysql then ["CHARSET", "FULLTEXT", "INDEX", "KEY", "SPATIAL", "ZEROFILL"] else [])

/-- The keywords that begin a constraint on a table without a name. -/
def unnamedWords : List String := [
  "CHECK", "EXCLUDE", "FOREIGN KEY", "LIKE", "PERIOD", "PRIMARY KEY", "UNIQUE", "BUCKET",
  "TRUNCATE"] ++
  (if d = .mysql then ["FULLTEXT", "INDEX", "KEY", "SPATIAL"] else [])

/-- A word with one of several words behind it, or by itself. -/
def wordWith (w : String) (after : List String) : Reader (Option Unit) := attempt do
  if !(← word w) then return none
  if after.isEmpty then return some ()
  match ← wordOf? after with
  | some _ => return some ()
  | none => return none

/-- What shall happen to a row when the row it refers to goes. -/
def action : Reader Bool := do
  if ← words ["NO", "ACTION"] then return true
  else if ← words ["CASCADE"] then return true
  else if ← words ["RESTRICT"] then return true
  else if ← words ["SET", "NULL"] then return true
  else words ["SET", "DEFAULT"]

/-- The options behind a key. -/
def keyOptions : Reader Unit := do
  let _ ← many do
    if ← keyword "ON" then
      let _ ← anyWord
      must action
      return some ()
    else
      either (wordWith "NOT" ["ENFORCED"]) <|
      either (wordWith "MATCH" ["FULL", "PARTIAL", "SIMPLE"]) <|
      either (wordWith "INITIALLY" ["DEFERRED", "IMMEDIATE"]) <|
      either (wordWith "USING" ["BTREE", "HASH"]) <|
      either (wordWith "DEFERRABLE" []) <|
      either (wordWith "NORELY" []) (wordWith "RELY" [])

/-- A column of an index, perhaps with an operator class, a direction and an operator. Only a column
without an operator class has a name. -/
def indexPart : Reader (Option Text) := do
  match ← expression d r with
  | none => return none
  | some e =>
    let label ← (do
      if ← sees (Token.spellsAny ["ASC", "DESC", "NULLS", "WITH"]) then return e.label
      else if ← sees (fun t => t.isMark "," || t.isMark ")") then return e.label
      else
        let _ ← tableName d
        return [])
    let _ ← keyword "ASC"
    let _ ← keyword "DESC"
    if !(← words ["NULLS", "FIRST"]) then
      let _ ← words ["NULLS", "LAST"]
    if ← keyword "WITH" then
      skip
      return some []
    return some label

/-- How an index is built, with the names of its columns. Nothing in it is required. -/
def indexParams : Reader (List Text) := do
  if ← keyword "USING" then
    let _ ← need anyWord
  let columns ← (do
    if ← seesMark "(" then wrappedCsv (indexPart d r) else return [])
  if ← words ["INCLUDE"] then
    let _ ← wrappedCsv (name d true)
  if ← keyword "PARTITION BY" then
    let _ ← csv (expression d r)
  if ← keyword "WITH" then
    let _ ← wrappedCsv (innerProperty d r)
  if ← words ["USING", "INDEX", "TABLESPACE"] then
    let _ ← need anyWord
  if ← keyword "WHERE" then
    let _ ← need (expression d r)
  if ← keyword "ON" then
    let _ ← need (field d r false)
  return columns.filter (! ·.isEmpty)

/-- A column of a key of MySQL: a name and perhaps how many of its characters count. -/
def prefixedColumn : Reader (Option Expr) := do
  match ← nameExpr d true with
  | none => return none
  | some e =>
    if ← mark "(" then
      must (takes (·.kind = .number))
      must (mark ")")
    return some e

/-- A column of a primary key. -/
def primaryKeyPart : Reader (Option Text) := do
  let part := match d with
    | .mysql => prefixedColumn d
    | .mssql => ordered d r
    | _ => field d r false
  return (← part).map Expr.label

/-- A primary key: of the table if its columns are listed, else of a column. -/
def primaryKey : Reader Found := do
  let _ ← wordOf? ["ASC", "DESC"]
  match ← peek?, ← second? with
  | some t, some u =>
    if u.isMark "(" && !t.isMark "(" && !t.spellsAny (constraintWords d) then
      let _ ← name d true
  | _, _ => pure ()
  if ← seesMark "(" then
    let columns ← wrappedCsv (primaryKeyPart d r)
    let _ ← indexParams d r
    keyOptions
    return .table (.primaryKey (columns.filter (! ·.isEmpty)))
  else
    keyOptions
    return .column .primaryKey

/-- The value of a generated column. -/
def generated : Reader Found := do
  if ← words ["BY", "DEFAULT"] then
    if ← keyword "ON" then must (takes fun t => t.kind = .type "NULL")
  else
    let _ ← words ["ALWAYS"]
  let _ ← keyword "ALIAS"
  if ← words ["ROW"] then
    if !(← words ["START"]) then
      let _ ← words ["END"]
    let _ ← words ["HIDDEN"]
    return .other
  let identity ← words ["IDENTITY"]
  let mut computed := false
  if ← mark "(" then
    let mut started := false
    if ← keyword "START WITH" then
      let _ ← bitwise d r
      started := true
    if ← words ["INCREMENT", "BY"] then
      let _ ← bitwise d r
    if ← words ["MINVALUE"] then
      let _ ← bitwise d r
    if ← words ["MAXVALUE"] then
      let _ ← bitwise d r
    if !(← words ["CYCLE"]) then
      let _ ← words ["NO", "CYCLE"]
    if !identity then computed := (← range d r).isSome
    else if !started && (← sees (·.kind = .number)) then
      let _ ← csv (bitwise d r)
    must (mark ")")
  let stored ← wordOf? (match d with
    | .mysql => ["STORED", "VIRTUAL"]
    | .postgresql => ["STORED"]
    | _ => [])
  return if stored.isSome then .other else .column (.generated computed)

/-- What an insertion shall do on a conflict. -/
def onConflict : Reader Unit := do
  if ← words ["ON", "CONFLICT"] then
    if ← mark "(" then
      toClosing
      must (mark ")")
    match ← wordOf? ["ABORT", "FAIL", "IGNORE", "REPLACE", "ROLLBACK", "UPDATE", "DO"] with
    | some "DO" => do
      if !(← words ["NOTHING"]) then
        if ← words ["UPDATE", "SET"] then
          let _ ← csv (expression d r)
          if ← keyword "WHERE" then
            let _ ← need (expression d r)
        else reject
    | some _ => pure ()
    | none => reject

/-- An increment, with its start and step if they are given. -/
def increment : Reader Found := do
  if ← seesMark "(" then
    let _ ← wrappedCsv (bitwise d r)
  else if ← words ["START"] then
    let _ ← bitwise d r
    let _ ← words ["INCREMENT"]
    let _ ← bitwise d r
  return .column .autoIncrement

/-- An index of MySQL inside a table definition. -/
def indexDefinition (kinded : Bool) : Reader Found := do
  if kinded then
    let _ ← wordOf? ["INDEX", "KEY"]
  let i ← name d false
  if ← keyword "USING" then
    let _ ← anyWord
  let columns ← wrappedCsv do
    let part ← prefixedColumn d
    let _ ← keyword "ASC"
    let _ ← keyword "DESC"
    return part.map Expr.label
  let _ ← many do
    if ← words ["KEY_BLOCK_SIZE"] then
      let _ ← mark "="
      must (takes (·.kind = .number))
      return some ()
    else if ← keyword "USING" then
      let _ ← anyWord
      return some ()
    else if ← words ["WITH", "PARSER"] then
      let _ ← anyWord
      return some ()
    else if ← keyword "COMMENT" then
      let _ ← need string
      return some ()
    else if (← wordOf? ["VISIBLE", "INVISIBLE"]).isSome then return some ()
    else if (← wordOf? ["ENGINE_ATTRIBUTE", "SECONDARY_ENGINE_ATTRIBUTE"]).isSome then
      let _ ← mark "="
      let _ ← need string
      return some ()
    else return none
  return .table (.index ((i.map (·.name)).getD []) (columns.filter (! ·.isEmpty)))

/-- What the readers of columns need of the readers of constraints, one level further in. -/
structure Inner where
  reference : Reader Reference
  parts : Reader (List Text)

variable (inner : Inner)

/-- Names and columns in parentheses behind a table, unless a query stands there. -/
def partsIfAny : Reader (Option (List Text)) := attempt do
  if !(← mark "(") then return none
  if ← sees (fun t => t.isMark "(" || t.isKeyword "WITH" || t.isKeyword "SELECT") then return none
  let columns ← inner.parts
  must (mark ")")
  return some columns

/-- The target of a foreign key. -/
def reference : Reader Reference := do
  let table ← tableName d
  let columns ← partsIfAny inner
  keyOptions
  return ⟨table.name, columns.getD []⟩

/-- A unique constraint: of the table if its columns are listed, else of a column. -/
def unique : Reader Found := do
  let i ← (do
    if d = .postgresql then
      let _ ← words ["NULLS", "NOT", "DISTINCT"]
      return none
    else
      let _ ← wordOf? ["KEY", "INDEX"]
      if ← sees (fun t => t.kind ≠ .quoted && t.spellsAny (constraintWords d)) then return none
      else name d false)
  if d = .mysql && i.isSome then
    if ← keyword "USING" then
      let _ ← anyWord
  let columns ← partsIfAny inner
  if ← keyword "USING" then
    let _ ← anyWord
  onConflict d r
  keyOptions
  match columns with
  | some columns =>
    return .table (.unique ((i.map (·.name)).getD []) (columns.filter (! ·.isEmpty)))
  | none => return .other

/-- A foreign key with its target. -/
def foreignKey : Reader Found := do
  let columns ← (do
    if ← seesKeyword "REFERENCES" then return []
    else wrappedCsv (name d true))
  let target ← (do
    if ← keyword "REFERENCES" then return some (← reference d inner) else return none)
  let _ ← many do
    if ← keyword "ON" then
      must (takes fun t => t.isKeyword "DELETE" || t.isKeyword "UPDATE")
      if !(← words ["NO", "ACTION"]) then
        if ← keyword "SET" then
          let _ ← takes fun t => t.kind = .type "NULL" || t.isKeyword "DEFAULT"
        else skip
      return some ()
    else return none
  keyOptions
  return .table (.foreignKey ((columns.map (·.name)).filter (! ·.isEmpty)) target)

/-- What follows the keyword of a constraint. Nothing is found where the keyword turns out not to
begin one. -/
def constraintBody (w : String) : Reader (Option Found) := do
  match w with
  | "AUTOINCREMENT" | "AUTO_INCREMENT" | "IDENTITY" => return some (← increment d r)
  | "CASESPECIFIC" | "UPPERCASE" | "ZEROFILL" => return some .other
  | "CHARACTER SET" | "CHARSET" | "FORMAT" | "TITLE" =>
    let _ ← need wordOrString
    return some .other
  | "CHECK" =>
    let _ ← wrapped (need (expression d r))
    let _ ← words ["ENFORCED"]
    return some .other
  | "COLLATE" =>
    let _ ← need (column d r)
    return some .other
  | "COMMENT" | "PATH" =>
    let _ ← need string
    return some .other
  | "COMPRESS" =>
    if ← seesMark "(" then
      let _ ← wrappedCsv (bitwise d r)
    else
      let _ ← bitwise d r
    return some .other
  | "CLUSTERED" | "NONCLUSTERED" =>
    let _ ← wrappedCsv (ordered d r)
    return some .other
  | "DEFAULT" => return some (.column (.default (← need (bitwise d r))))
  | "ENCODE" =>
    let _ ← need plainWord
    return some .other
  | "EPHEMERAL" | "TTL" | "INLINE" =>
    let _ ← bitwise d r
    return some .other
  | "EXCLUDE" =>
    let _ ← indexParams d r
    return some .other
  | "FOREIGN KEY" => return some (← foreignKey d inner)
  | "GENERATED" => return some (← generated d r)
  | "LIKE" =>
    likeTable d
    return some .other
  | "NOT" =>
    if ← words ["NULL"] then return some (.column (.notNull false))
    else if ← words ["CASESPECIFIC"] then return some .other
    else if ← words ["FOR", "REPLICATION"] then return some .other
    else return none
  | "NULL" => return some (.column (.notNull true))
  | "ON" =>
    if ← keyword "UPDATE" then
      let _ ← need (functionCall d r false false false)
    else
      let _ ← need (name d true)
    return some .other
  | "PERIOD" =>
    if ← words ["FOR SYSTEM_TIME"] then pure ()
    else if ← words ["FOR", "SYSTEM_TIME"] then pure ()
    else return none
    let _ ← wrappedCsv (name d true)
    return some .other
  | "BUCKET" | "TRUNCATE" =>
    if ← seesMark "(" then
      let _ ← wrappedCsv (expression d r)
      return some .other
    else return none
  | "PRIMARY KEY" => return some (← primaryKey d r)
  | "REFERENCES" => return some (.column (.references (← reference d inner)))
  | "UNIQUE" => return some (← unique d r inner)
  | "WITH" =>
    let _ ← wrappedCsv (innerProperty d r)
    return some .other
  | "KEY" | "INDEX" => return some (← indexDefinition d false)
  | "FULLTEXT" | "SPATIAL" => return some (← indexDefinition d true)
  | _ => return none

/-- A constraint on a column, perhaps with a name. Its keyword must be a constraint's. -/
def columnConstraint : Reader (Option ColumnConstraint) := do
  let named ← (do if ← keyword "CONSTRAINT" then name d true else return none)
  match ← wordOf? (constraintWords d) with
  | some "KEY" => return some .primaryKey
  | some w =>
    let found ← need (constraintBody d r inner w)
    return some found.asColumn
  | none => return if named.isSome then some .other else none

/-- A constraint on the table that begins with one of the words. -/
def tableConstraint (ws : List String) : Reader (Option TableConstraint) := attempt do
  if ← sees (·.kind = .quoted) then return none
  match ← wordOf? ws with
  | none => return none
  | some w => return (← constraintBody d r inner w).map Found.asTable

/-- The value of a computed column. -/
def computed (typed : Bool) : Reader Bool := do
  if !typed then
    let named ← (do
      if ← keyword "ALIAS" then return true
      else return (← wordOf? ["ALIAS", "MATERIALIZED"]).isSome)
    if !named then return false
    let _ ← need (expression d r)
    let _ ← words ["PERSISTED"]
    let _ ← words ["NOT", "NULL"]
    return true
  else if (← wordOf? ["ALIAS", "MATERIALIZED"]).isSome then
    let _ ← need (expression d r)
    let _ ← words ["PERSISTED"]
    let _ ← words ["NOT", "NULL"]
    return true
  else if ← keyword "ALIAS" then
    let _ ← need (expression d r)
    let _ ← wordOf? ["STORED", "VIRTUAL", "PERSISTED"]
    return true
  else return false

/-- The definition of a column that goes by an expression, or just the expression's name. -/
def columnDef (this : Option Expr) : Reader (Option (Expr ⊕ ColumnDef)) := do
  let type ← dataType d r true false true
  let isComputed ← computed d r type.isSome
  let constraints ← many (columnConstraint d r inner)
  let constraints := if isComputed then .other :: constraints else constraints
  match this, type.isNone && constraints.isEmpty with
  | this, true => return this.map .inl
  | some e, false => return some (.inr ⟨e.columnName, type, constraints⟩)
  | none, false => reject

/-- A named constraint. The name may be missing where a constraint's keyword follows. -/
def namedConstraint : Reader TableElement := do
  let i ← (do
    if d = .mysql && (← sees fun t => t.kind ≠ .quoted && t.spellsAny (unnamedWords d)) then
      return none
    else name d true)
  let parts ← many do
    match ← tableConstraint d r inner (constraintWords d) with
    | some c => return some c
    | none => return (← functionCall d r false false false).map fun _ => .other
  if parts.isEmpty then reject
  return .named ((i.map (·.name)).getD []) parts

/-- An element of a table definition. -/
def tableElement : Reader (Option TableElement) := do
  if ← keyword "CONSTRAINT" then return some (← namedConstraint d r inner)
  match ← tableConstraint d r inner (unnamedWords d) with
  | some c => return some (.constraint c)
  | none =>
    match ← columnDef d r inner (← field d r true) with
    | none => return none
    | some (.inl _) => return some (.constraint .other)
    | some (.inr c) => return some (.column c)

/-- The names of the columns listed behind a table or in a unique constraint. -/
def listedParts : Reader (List Text) := csv do
  match ← tableConstraint d r inner (unnamedWords d) with
  | some _ => return some []
  | none =>
    let e ← field d r true
    let e ← (match e with
      | some e => do return some (← suffixes d r e)
      | none => return none)
    match ← columnDef d r inner e with
    | none => return none
    | some found =>
      let _ ← keyword "ASC"
      let _ ← keyword "DESC"
      match found with
      | .inl e => return some e.label
      | .inr c => return some c.name

/-- The readers for constraints that nest at most `n` deep. -/
def Inner.ofDepth : Nat → Inner
  | 0 => ⟨reject, reject⟩
  | n + 1 => ⟨Reader.reference d (ofDepth n), listedParts d r (ofDepth n)⟩

/-- The elements of a table definition, between parentheses; nothing where none begins, or where a
query stands in them. -/
def tableElements (depth : Nat) : Reader (Option (List TableElement)) := attempt do
  if !(← mark "(") then return none
  if ← sees (fun t => t.isMark "(" || t.isKeyword "WITH" || t.isKeyword "SELECT") then return none
  let elements ← csv (tableElement d r (Inner.ofDepth d r depth))
  must (mark ")")
  return some elements

end CodeManifest.Sql.Reader
