import CodeManifest.Sql.Read.Expr

namespace CodeManifest.Sql

namespace Reader

variable (d : Dialect) (r : Deeper)

/-- Names that a table may not be called by where a clause could follow. -/
private def clauseKeywords : List String := [
  "ANTI", "ASOF", "FULL", "LEFT", "LOCK", "NATURAL", "RIGHT", "SEMI", "WINDOW", "LIMIT", "OFFSET",
  "SET", "APPLY"]

/-- Another name for a table, perhaps with names for its columns. -/
def tableAlias : Reader Unit := do
  let named ← keyword "ALIAS"
  let clause ← sees fun t => clauseKeywords.any t.isKeyword
  if named || !clause then
    match ← name d named with
    | some _ =>
      if ← seesMark "(" then
        let _ ← wrappedCsv (name d true)
    | none => if named then reject

/-- A table, the result of a function, or a query in parentheses. -/
def source : Reader Unit := do
  let _ ← keyword "LATERAL"
  let _ ← keyword "ONLY"
  if ← mark "(" then
    if ← r.query then must (mark ")")
    else
      let _ ← tableName d
      tableAlias d
      toClosing
      must (mark ")")
  else
    match ← functionCall d r false false false with
    | some _ => pure ()
    | none =>
      let _ ← tableName d
      if ← seesMark "(" then wrapped toClosing
  tableAlias d
  if ← keyword "WITH" then
    if ← seesMark "(" then wrapped toClosing

/-- The word `JOIN` with the words that tell its kind. -/
def joinWord : Reader Bool := do
  if ← mark "," then return true
  let found ← attempt do
    let _ ← keyword "NATURAL"
    let _ ← wordOf? ["LEFT", "RIGHT", "FULL", "INNER", "CROSS", "SEMI", "ANTI", "OUTER"]
    let _ ← keyword "OUTER"
    if ← keyword "JOIN" then return some ()
    else if ← keyword "STRAIGHT_JOIN" then return some ()
    else if ← keyword "APPLY" then return some ()
    else return none
  return found.isSome

/-- The tables of a query. -/
def sources : Reader Unit := do
  source d r
  let _ ← many do
    if ← joinWord then
      source d r
      if ← keyword "ON" then
        let _ ← need (expression d r)
      else if ← keyword "USING" then
        let _ ← wrappedCsv (name d true)
      return some ()
    else return none

/-- A clause behind the tables of a query. -/
def clause : Reader (Option Unit) := do
  if ← keyword "WHERE" then
    let _ ← need (expression d r)
    return some ()
  else if ← keyword "GROUP BY" then
    let _ ← csv (aliased d r)
    return some ()
  else if ← keyword "HAVING" then
    let _ ← need (expression d r)
    return some ()
  else if ← keyword "ORDER BY" then
    let _ ← csv (ordered d r)
    return some ()
  else if ← keyword "LIMIT" then
    let _ ← csv (term d r)
    return some ()
  else if ← keyword "OFFSET" then
    let _ ← need (term d r)
    let _ ← wordOf? ["ROW", "ROWS"]
    return some ()
  else if ← keyword "FETCH" then
    let _ ← wordOf? ["FIRST", "NEXT"]
    let _ ← typed d r
    let _ ← wordOf? ["ROW", "ROWS"]
    let _ ← words ["ONLY"]
    return some ()
  else if ← keyword "FOR" then
    let _ ← wordOf? ["UPDATE", "SHARE", "XML", "JSON"]
    let _ ← anyWord
    return some ()
  else return none

/-- The head of a query up to its clauses. -/
def selectHead : Reader Bool := do
  if ← keyword "SELECT" then
    let _ ← keyword "ALL"
    if ← keyword "DISTINCT" then
      if ← keyword "ON" then
        let _ ← wrappedCsv (expression d r)
    if ← keyword "TOP" then
      let _ ← need (typed d r)
      let _ ← keyword "PERCENT"
    let _ ← csv (aliased d r)
    if ← keyword "INTO" then
      let _ ← keyword "TEMPORARY"
      let _ ← keyword "TABLE"
      let _ ← tableName d
    if ← keyword "FROM" then sources d r
    return true
  else if ← keyword "VALUES" then
    let _ ← csv (expression d r)
    return true
  else return false

/-- The common table expressions in front of a query. -/
def withClause : Reader Unit := do
  if ← keyword "WITH" then
    let _ ← keyword "RECURSIVE"
    let _ ← csv do
      let _ ← need (name d true)
      if ← seesMark "(" then
        let _ ← wrappedCsv (name d true)
      must (keyword "ALIAS")
      let _ ← keyword "NOT"
      let _ ← words ["MATERIALIZED"]
      must (mark "(")
      toClosing
      must (mark ")")
      return some ()

/-- A query in parentheses. -/
def nestedQuery : Reader Bool := do
  if ← seesMark "(" then
    must (mark "(")
    must r.query
    must (mark ")")
    return true
  else return false

/-- A query without the parentheses around it. `nested` lets it begin with some. -/
def query (nested : Bool) : Reader Bool := do
  let found ← attempt do
    withClause d
    if ← selectHead d r then return some ()
    else if nested then return if ← nestedQuery r then some () else none
    else return none
  match found with
  | none => return false
  | some _ =>
    let _ ← many (clause d r)
    let _ ← many do
      match ← take? fun t => ["UNION", "EXCEPT", "INTERSECT"].any t.isKeyword with
      | none => return none
      | some _ =>
        let _ ← keyword "ALL"
        let _ ← keyword "DISTINCT"
        let head ← selectHead d r
        if !head then must (nestedQuery r)
        let _ ← many (clause d r)
        return some ()
    return true

end Reader

namespace Deeper

/-- The readers of the level above `r`. -/
def next (d : Dialect) (r : Deeper) : Deeper where
  expr := Reader.expression d r
  equality := Reader.equality d r
  unary := Reader.unary d r
  typed := Reader.typed d r
  dataType := Reader.dataType d r false false true
  query := Reader.query d r false

/-- The readers for texts that nest at most `n` deep. -/
def ofDepth (d : Dialect) : Nat → Deeper
  | 0 => ⟨.reject, .reject, .reject, .reject, .reject, .reject⟩
  | n + 1 => next d (ofDepth d n)

end Deeper

end CodeManifest.Sql
