import CodeManifest.Sql.Read.Table

namespace CodeManifest.Sql

namespace Statement

/-- A statement that is kept as its first word and the rest of its source. -/
def kept (chunk : List Token) : Statement :=
  match chunk.head?, chunk.getLast? with
  | some first, some last =>
    .command ⟨first.text, some ((Token.source first last).drop first.text.length)⟩
  | _, _ => .other

end Statement

namespace Reader

variable (d : Dialect) (r : Deeper)

/-- All tokens that are left. -/
def takeAll : Reader Unit := fun _ => some ((), [])

/-- The rest is taken without a look at it. -/
def unread : Reader Statement := do
  takeAll
  return .other

/-- `IF EXISTS` or `IF NOT EXISTS`; an `IF` is taken even where the rest of the phrase is missing. -/
def exists? (negated : Bool) : Reader Bool := do
  if !(← word "IF") then return false
  if negated then
    if !(← keyword "NOT") then return false
  keyword "EXISTS"

/-- The keywords for what can be created. -/
private def creatable : List String := [
  "COLUMN", "CONSTRAINT", "DATABASE", "FOREIGN KEY", "FUNCTION", "INDEX", "NAMESPACE", "PROCEDURE",
  "SCHEMA", "SEQUENCE", "SESSION", "TABLE", "VIEW"]

def isCreatable (t : Token) : Bool :=
  match t.kind with
  | .keyword k => creatable.contains k
  | _ => false

/-- A property that begins with a word of its own. -/
def wordProperty : Reader (Option Unit) := attempt do
  let _ ← mark ","
  let _ ← wordOf? ["NO", "DEFAULT", "LOCAL"]
  match ← wordOf? (propertyWords d) with
  | some w => propertyBody d r w (innerProperty d r)
  | none => return none

/-- A statement that the grammar has read up to what is left of `chunk`. Anything left but a closing
parenthesis or a comma makes it a statement that is kept as it is. -/
def finished (chunk : List Token) (s : Statement) : Reader Statement := do
  if (← atEnd) || (← seesMark ")") || (← seesMark ",") then return s
  takeAll
  return .kept chunk

/-- An index, behind the word `INDEX`. -/
def createIndex : Reader CreateIndex := do
  let i ← (do
    if ← keyword "ON" then return none else return some (← need (name d true)))
  let _ ← keyword "ON"
  let _ ← keyword "TABLE"
  let (qualifier, table) ← tablePath d
  let columns ← indexParams d r
  return { table := table.name, name := (i.map (·.name)).getD [], columns, qualifier }

/-- A table or another thing with a name and elements, behind the word for what it is. -/
def createNamed (depth : Nat) (what : Token) : Reader CreateTable := do
  let (qualifier, table) ← tablePath d
  let _ ← mark ","
  let _ ← many (wordProperty d r)
  let elements ← tableElements d r depth
  let _ ← properties d r
  let named ← keyword "ALIAS"
  let selects ← sees fun t => ["SELECT", "WITH", "VALUES"].any t.isKeyword || t.isMark "("
  if !selects then
    let _ ← properties d r
  let found ← query d r true
  if !found && named then
    let _ ← hope (some <$> tableName d)
  let _ ← properties d r
  if what.isKeyword "TABLE" then
    let _ ← many do
      let _ ← keyword "UNIQUE"
      let _ ← words ["PRIMARY"]
      let _ ← words ["AMP"]
      let found ← keyword "INDEX"
      if found then
        let _ ← name d true
        let _ ← indexParams d r
      let _ ← properties d r
      if !found then return none
      let _ ← mark ","
      return some ()
  let _ ← words ["SHALLOW"]
  if (← wordOf? ["CLONE", "COPY"]).isSome then
    let _ ← tableName d
  return { name := table.name, elements := elements.getD [], qualifier }

/-- `CREATE`, which has been taken as the first token of `chunk`. -/
def create (depth : Nat) (chunk : List Token) : Reader Statement := do
  let _ ← (do if ← keywords "OR" "REPLACE" then return true else keywords "OR" "ALTER")
  let _ ← keyword "UNIQUE"
  let _ ← (do
    if ← words ["CLUSTERED", "COLUMNSTORE"] then return true
    else if ← words ["NONCLUSTERED", "COLUMNSTORE"] then return true
    else words ["COLUMNSTORE"])
  let what ← (do
    match ← take? isCreatable with
    | some t => return some t
    | none =>
      let found ← properties d r
      match ← take? isCreatable with
      | some t => return if found = 0 then none else some t
      | none => return none)
  match what with
  | none =>
    takeAll
    return .kept chunk
  | some t =>
    let _ ← words ["CONCURRENTLY"]
    let _ ← exists? true
    match t.kind with
    | .keyword "FUNCTION" | .keyword "PROCEDURE" => unread
    | .keyword "INDEX" =>
      let i ← createIndex d r
      finished chunk (if Text.asciiUpper t.text = "INDEX".toList then .index i else .other)
    | .keyword "TABLE" => finished chunk (.table (← createNamed d r depth t))
    | .keyword "COLUMN" | .keyword "CONSTRAINT" | .keyword "FOREIGN KEY" => finished chunk .other
    | _ =>
      let _ ← createNamed d r depth t
      finished chunk .other

/-- `DROP`, which has been taken as the first token of `chunk`. -/
def drop (chunk : List Token) : Reader Statement := do
  let _ ← keyword "TEMPORARY"
  let _ ← words ["MATERIALIZED"]
  match ← take? isCreatable with
  | none =>
    takeAll
    return .kept chunk
  | some _ =>
    let _ ← words ["CONCURRENTLY"]
    let _ ← exists? false
    let _ ← tableName d
    if ← keyword "ON" then
      let _ ← tableName d
    if ← seesMark "(" then wrapped toClosing
    let _ ← words ["CASCADE"]
    let _ ← words ["RESTRICT"]
    let _ ← words ["CONSTRAINTS"]
    let _ ← words ["PURGE"]
    return .other

/-- `ALTER` of a table needs the table's name. -/
def alter : Reader Statement := do
  if ← keyword "TABLE" then
    let _ ← exists? false
    let _ ← keyword "ONLY"
    let _ ← tableName d
  unread

/-- The values that a statement returns. -/
def returning : Reader Unit := do
  if ← keyword "RETURNING" then
    let _ ← csv (aliased d r)
    if ← keyword "INTO" then
      let _ ← need (name d true)

def insert : Reader Statement := do
  let _ ← keyword "OVERWRITE"
  let _ ← keyword "IGNORE"
  if ← keyword "OR" then
    let _ ← anyWord
  let _ ← keyword "INTO"
  let _ ← keyword "TABLE"
  let _ ← tableName d
  if ← keyword "ALIAS" then
    let _ ← need (name d true)
  let _ ← attempt do
    if !(← mark "(") then return none
    if ← sees (fun t => t.isMark "(" || t.isKeyword "SELECT" || t.isKeyword "WITH") then return none
    toClosing
    must (mark ")")
    return some ()
  returning d r
  if !(← words ["DEFAULT", "VALUES"]) then
    let _ ← query d r true
  if ← words ["ON", "DUPLICATE", "KEY"] then
    must (keyword "UPDATE")
    let _ ← keyword "SET"
    let _ ← csv (expression d r)
  else onConflict d r
  returning d r
  return .other

def update : Reader Statement := do
  sources d r
  must (keyword "SET")
  let _ ← csv (expression d r)
  returning d r
  if ← keyword "FROM" then sources d r
  let _ ← many (clause d r)
  returning d r
  return .other

def delete : Reader Statement := do
  if !(← keyword "FROM") then
    let _ ← csv (some <$> tableName d)
    let _ ← keyword "FROM"
  else pure ()
  if !(← atEnd) then sources d r
  returning d r
  if ← keyword "USING" then sources d r
  let _ ← many (clause d r)
  returning d r
  return .other

/-- The beginning of a transaction. -/
def begin : Reader Statement := do
  let _ ← wordOf? ["DEFERRED", "IMMEDIATE", "EXCLUSIVE"]
  let _ ← wordOf? ["TRAN", "TRANSACTION", "WORK"]
  let _ ← csv do
    let ws ← many do take? fun t => t.kind = .word || t.isKeyword "NOT"
    return if ws.isEmpty then none else some ()
  return .other

/-- The end of a transaction. -/
def finish : Reader Statement := do
  let _ ← wordOf? ["TRAN", "TRANSACTION", "WORK"]
  if ← words ["TO"] then
    let _ ← words ["SAVEPOINT"]
    let _ ← need (name d true)
  if ← words ["AND"] then
    let _ ← words ["NO"]
    must (words ["CHAIN"])
  if d = .mssql then
    let _ ← name d false
  return .other

/-- An expression or a query as a statement. -/
def value : Reader Statement := do
  match ← aliased d r with
  | some _ =>
    let _ ← many (clause d r)
    return .other
  | none =>
    if ← query d r false then return .other
    reject

/-- One statement; `chunk` holds all its tokens. -/
def statement (depth : Nat) (chunk : List Token) : Reader Statement := do
  match ← peek?, ← second? with
  | none, _ => reject
  | some t, u =>
    match t.kind with
    | .keyword k =>
      if Keyword.isCommand d t.kind then
        skip
        return .command ⟨Text.asciiUpper t.text, ← string⟩
      match k with
      | "CREATE" => skip; create d r depth chunk
      | "DROP" => skip; drop d chunk
      | "ALTER" => skip; alter d
      | "INSERT" => skip; insert d r
      | "REPLACE" => skip; insert d r
      | "UPDATE" => skip; update d r
      | "DELETE" => skip; delete d r
      | "BEGIN" => skip; begin
      | "COMMIT" | "ROLLBACK" => skip; finish d
      | "USE" =>
        skip
        let _ ← tableName d
        return .other
      | "PRAGMA" =>
        skip
        if d = .sqlite then unread
        else
          let _ ← need (aliased d r)
          return .other
      | "SET" | "GRANT" | "REVOKE" | "ANALYZE" | "TRUNCATE" | "COPY" | "LOAD" | "KILL" | "MERGE"
      | "CACHE" | "UNCACHE" | "DECLARE" | "EXECUTE" | "SHOW" | "ATTACH" | "DETACH" | "DESCRIBE"
      | "DESC" | "COMMENT" | "PIVOT" | "UNPIVOT" => unread
      | _ => value d r
    | .word =>
      if t.spells "IF" && !u.any (Token.isMark "(") then unread else value d r
    | _ => value d r

/-- A statement all of whose tokens the grammar takes. -/
def whole (chunk : List Token) : Option Statement :=
  let depth := chunk.length
  match statement d (Deeper.ofDepth d depth) depth chunk chunk with
  | some (s, []) => some s
  | _ => none

/-- The condition of SQL Server's `IF`; what is left is the statement that hangs on it. -/
def condition? (chunk : List Token) : Option (List Token) :=
  match chunk with
  | t :: ts =>
    if t.kind = .word && t.spells "IF" then
      match expression d (Deeper.ofDepth d ts.length) ts with
      | some (some _, rest) => some rest
      | _ => none
    else none
  | [] => none

end Reader

namespace Statement

/-- The tokens between semicolons. -/
def chunks : List Token → List (List Token)
  | [] => [[]]
  | t :: ts =>
    if t.isMark ";" then [] :: chunks ts
    else match chunks ts with
      | [] => [[t]]
      | c :: cs => (t :: c) :: cs

/-- Where there are no tokens, there is a blank statement. In SQL Server an `IF` takes all that follows
with it, and none of it stands by itself. -/
def ofChunks (d : Dialect) : List (List Token) → Option (List (Option Statement))
  | [] => some []
  | c :: cs =>
    if c.isEmpty then (ofChunks d cs).map (none :: ·)
    else if d = .mssql && c.head?.any fun t => t.kind = .word && t.spells "IF" then
      match Reader.condition? d c with
      | none => none
      | some rest =>
        if (rest :: cs).all fun c => c.isEmpty || (Reader.whole d c).isSome then some [some .other]
        else none
    else match Reader.whole d c with
      | none => none
      | some s => (ofChunks d cs).map (some s :: ·)

/-- The statements of a text, or nothing where the dialect rejects it. -/
def parse (d : Dialect) (t : Text) : Option (List (Option Statement)) :=
  (Token.scan d t).bind fun ts => ofChunks d (chunks ts)

end Statement

end CodeManifest.Sql
