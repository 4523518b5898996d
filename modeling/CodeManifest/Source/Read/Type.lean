import CodeManifest.Source.Read.Token

namespace CodeManifest.Source

/-- The readers of one level further in. Each is called behind a token that has been taken. -/
structure Deeper where
  /-- may an element of markup stand for an expression? -/
  markup : Bool
  expr : Reader Reader.Shape
  sequence : Reader Unit
  type : Reader Unit
  statement : Reader Reader.Shape
  /-- a class, with or without a name -/
  classLike : Reader Reader.Shape
  /-- an element of markup, up to its last mark -/
  element : Reader Unit

namespace Reader

variable (r : Deeper)

/-- The types that a generic one is applied to. -/
def typeArguments : Reader Unit := do
  mark "<"
  let ts ← commaSeparated comma r.type
  require (!ts.isEmpty)
  mark ">"

/-- A word that says more of the parameter of a type. -/
def variance : Reader Unit := do
  let w ← word
  require (["const", "in", "out"].any (·.toList = w))
  require (← ahead word)

def typeParameter : Reader Unit := do
  let _ ← many variance
  let _ ← name
  let _ ← optionally do keyword "extends"; r.type
  let _ ← optionally do mark "="; r.type

def typeParameters : Reader Unit := do
  mark "<"
  let ps ← commaSeparated comma (typeParameter r)
  require (!ps.isEmpty)
  mark ">"

/-- What a function asserts of a parameter. -/
def assertion : Reader Unit := do
  keyword "asserts"
  sameLine
  let w ← word
  require (w = "this" || !Token.reserved.contains w)
  let _ ← optionally do keyword "is"; r.type

/-- What a function tells of a parameter. -/
def predicate : Reader Unit := do
  let w ← word
  require (w = "this" || !Token.reserved.contains w)
  sameLine
  keyword "is"
  r.type

/-- The type that a function yields. -/
def returned : Reader Kind := do
  if ← succeeds (assertion r) then return .assertsClause
  if ← succeeds (predicate r) then return .predicateClause
  r.type
  return .typeClause

/-- The parameters and the result of a function type. -/
def functionType : Reader Unit := do
  let _ ← optionally (typeParameters r)
  brackets "("
  mark "=>"
  let _ ← returned r

/-- Names with dots between them. -/
def dotted : Reader Unit := do
  let _ ← many do
    mark "."
    let _ ← word

/-- A type that begins with a word. -/
def namedType : Reader Unit := do
  let w ← word
  let is (v : String) : Bool := w = v.toList
  if is "new" then functionType r
  else if is "abstract" && (← seesKeyword "new") then
    let _ ← word
    functionType r
  else if is "typeof" || is "import" then
    if is "typeof" then
      let _ ← word
    let _ ← optionally (brackets "(")
    dotted
    let _ ← optionally (typeArguments r)
  else
    require (!Token.reserved.contains w || ["void", "null", "this", "true", "false"].any is)
    dotted
    let _ ← optionally (typeArguments r)

/-- The words that may stand in front of a type. -/
def typeOperator : Reader Unit := do
  let w ← word
  require (["keyof", "unique", "readonly"].any (·.toList = w))

/-- A type that a condition finds. -/
def inferred : Reader Unit := do
  keyword "infer"
  let _ ← name

/-- A type without anything behind it. -/
def plainType : Reader Unit := do
  let c ← get
  match c.rest.head? with
  | none => fail
  | some '(' =>
    if ← succeeds (functionType r) then return ()
    brackets "("
  | some '<' => functionType r
  | some '[' => brackets "["
  | some '\x7b' => brackets "\x7b"
  | some '`' => let _ ← template
  | some '"' | some '\'' => let _ ← string
  | some '-' => mark "-"; let _ ← number
  | some '?' => mark "?"; r.type
  | some '*' => mark "*"
  | some x =>
    if Text.isDigit x then
      let _ ← number
    else namedType r

/-- A type with the brackets of arrays and of access behind it. -/
def operandType : Reader Unit := do
  if ← succeeds (do typeOperator; r.type) then return ()
  if ← succeeds inferred then return ()
  plainType r
  let _ ← many do sameLine; brackets "["

/-- A bar or an ampersand between two types. -/
def typeMark : Reader Unit := do
  if ← succeeds (markNotBefore "|" fun c => c = '|' || c = '=') then return ()
  markNotBefore "&" fun c => c = '&' || c = '='

/-- Types that are joined or met; a mark may also stand in front. -/
def joinedType : Reader Unit := do
  let _ ← optionally typeMark
  operandType r
  let _ ← many do typeMark; operandType r

/-- A type. -/
def type : Reader Unit := do
  joinedType r
  let _ ← optionally do
    keyword "extends"
    joinedType r
    mark "?"
    r.type
    mark ":"
    r.type

/-- The node of what a colon and the reader behind it take, with the comments in between. -/
def clause (label : Label) (body : Reader Kind) : Reader Node := placed (some label) do
  let colon ← tokenNode (mark ":")
  let between ← comments
  let c ← get
  let kind ← body
  let d ← get
  let type : Node := { kind := .other, text := c.rest.take (c.left - d.ended), line := c.line }
  return { kind, children := colon :: between ++ [type] }

def typeClause : Reader Node := clause .type do
  r.type
  return .typeClause

def returnClause : Reader Node := clause .returnType (returned r)

end Reader

end CodeManifest.Source
