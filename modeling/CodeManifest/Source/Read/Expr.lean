import CodeManifest.Source.Read.Type

namespace CodeManifest.Source.Reader

variable (r : Deeper)

def shape (kind : Kind) (r : Reader Unit) : Reader Shape := do
  r
  return { kind }

/-- The mark that closes a bracket, which may be missing at the end of the text. -/
def closing (m : Text) : Reader Unit := do
  if !(← succeeds (mark m)) then
    require (← atEnd)
    damage

/-- The statements of a block up to its closing brace. -/
def blockBody : Reader Unit := do
  let _ ← many do
    require (!(← sees "\x7d"))
    r.statement
  closing "\x7d"

/-- A block. One that cannot be read is passed over up to its closing brace. -/
def block : Reader Unit := do
  if !(← succeeds (do mark "\x7b"; blockBody r)) then
    brackets "\x7b"
    damage
  imply

/-- A decorator: an at sign and an expression without operators. -/
def decorator : Reader Node := placed none do
  mark "@"
  if ← succeeds (brackets "(") then pure ()
  else
    let _ ← word
    dotted
    let _ ← optionally (typeArguments r)
    let _ ← many (brackets "(")
  return { kind := .decorator }

/-- A list in square brackets, whose items may be missing. -/
def listBody : Reader Unit := do
  mark "["
  let _ ← many do
    if ← succeeds comma then return ()
    let _ ← optionally (mark "...")
    let _ ← r.expr
  closing "]"

/-- The name of a member, or whatever stands in square brackets instead. -/
def memberName : Reader Kind := do
  let c ← get
  match c.rest.head? with
  | some '[' =>
    brackets "["
    return .computedName
  | some '"' | some '\'' =>
    let _ ← string
    return .string
  | some '#' =>
    rawMark "#"
    let _ ← word
    return .other
  | _ =>
    if ← succeeds word then return .other
    let _ ← number
    return .number

def isBracket (c : Char) : Bool := c = '[' || c = '\x7b'

/-- What a parameter or a variable binds: a name, or a pattern between brackets. -/
def boundPattern : Reader Shape := do
  if ← sees "[" then shape .other (brackets "[")
  else if ← sees "\x7b" then shape .other (brackets "\x7b")
  else
    let w ← word
    if w = "this".toList then return { kind := .this }
    require (!Token.reserved.contains w)
    return { kind := .identifier }

/-- What a parameter binds, or the rest of the arguments. -/
def parameterPattern : Reader Shape := do
  if ← sees "..." then
    let dots ← tokenNode (mark "...")
    let between ← comments
    let inner ← spanned none boundPattern
    return { kind := .restPattern, children := dots :: between ++ [inner] }
  else boundPattern

/-- A word in front of a parameter that says how it is kept. -/
def parameterModifier : Reader Node := do
  let n ← spanned none do
    let w ← word
    require (["public", "private", "protected", "override", "readonly"].any (·.toList = w))
    return { kind := if ["override", "readonly"].any (·.toList = w) then .token else .accessibility }
  let c ← get
  require (c.rest.head?.any fun x => Token.isNameStart x || isBracket x || x = '.')
  return n

/-- The type of a parameter. One that is missing behind its colon is passed over. -/
def parameterType : Reader (Option Node) := do
  if !(← sees ":") then return none
  match ← optionally (typeClause r) with
  | some t => return some t
  | none =>
    mark ":"
    require ((← sees ")") || (← sees ",") || (← sees "="))
    damage
    return none

/-- The default of a parameter. One that is missing behind its mark is passed over. -/
def parameterDefault : Reader (Option Node) := do
  if !(← sees "=") then return none
  match ← optionally (do mark "="; spanned (some .value) r.expr) with
  | some v => return some v
  | none =>
    mark "="
    require ((← sees ")") || (← sees ","))
    damage
    return none

def parameter : Reader Node := placed none do
  let decorators ← many (decorator r)
  let modifiers ← many parameterModifier
  let pattern ← spanned (some .pattern) parameterPattern
  let optional ← succeeds (mark "?")
  let type ← parameterType r
  let value ← parameterDefault r
  return {
    kind := if optional then .optional else .required
    children := decorators ++ modifiers ++ [pattern] ++ type.toList ++ value.toList }

/-- Commas with nothing in front of them. -/
def strayCommas : Reader Unit := do
  if !(← many comma).isEmpty then damage

def parameters : Reader Node := placed (some .parameters) do
  mark "("
  strayCommas
  let ps ← commaSeparated (do comma; strayCommas) (parameter r)
  mark ")"
  return { kind := .parameters, children := ps }

/-- The parameters of a function with its type parameters and its result. A result that is missing in
front of an arrow is passed over. -/
def signature : Reader (List Node) := do
  let _ ← optionally (typeParameters r)
  let ps ← parameters r
  if !(← sees ":") then return [ps]
  match ← optionally (returnClause r) with
  | some t => return [ps, t]
  | none =>
    mark ":"
    require (← sees "=>")
    damage
    return [ps]

/-- A word as a node that has no meaning of its own. -/
def keywordNode (w : Text) : Reader Node := tokenNode (keyword w)

/-- A function that is a value. -/
def functionValue : Reader Shape := do
  let async ← optionally (keywordNode "async")
  keyword "function"
  let star ← succeeds (mark "*")
  let name ← optionally (spanned (some .name) do
    let _ ← Reader.name
    return { kind := .identifier })
  let s ← signature r
  block r
  return {
    kind := if star then .generatorExpression else .functionExpression
    children := async.toList ++ name.toList ++ s }

/-- The arrow of a function. -/
def arrowMark : Reader Unit := do
  sameLine
  mark "=>"

/-- The parameters of an arrow function. -/
def arrowHead : Reader (List Node) := do
  let single : Reader Node := do
    let p ← spanned (some .parameter) do
      let _ ← name
      return { kind := .identifier }
    require (← sees "=>")
    return p
  match ← optionally single with
  | some p => return [p]
  | none => signature r

/-- What stands behind the arrow. Where a semicolon stands there, the body is missing. -/
def arrowBody : Reader Unit := do
  if ← sees "\x7b" then block r
  else if ← sees ";" then damage
  else
    let _ ← r.expr

/-- A function that is written with an arrow. Only a parameter without brackets needs the body to make
a function. -/
def arrow : Reader Shape := do
  let head : Reader (List Node) := do
    let async ← keywordNode "async"
    sameLine
    let ps ← arrowHead r
    arrowMark
    return async :: ps
  let ps ← head <|> (do
    let ps ← arrowHead r
    arrowMark
    return ps)
  require (!(← sees ";") || !(ps.head?.any (·.label = some .parameter)))
  arrowBody r
  return { kind := .arrow, children := ps }

/-- Does what stands here look like the beginning of an arrow function? -/
def seesArrow : Reader Bool := ahead do
  let _ ← optionally do
    keyword "async"
    sameLine
    require (!(← sees "=>"))
  if ← sees "<" then return ()
  if ← sees "(" then
    brackets "("
    require ((← sees "=>") || (← sees ":"))
  else
    let _ ← name
    mark "=>"

/-- A word in front of the name of a member, which is no name itself. -/
def memberWord (ws : List String) : Reader Node := do
  let n ← spanned none do
    let w ← word
    require (ws.any (·.toList = w))
    return { kind := .token }
  let c ← get
  require (c.rest.head?.any fun x =>
    Token.isNameStart x || Text.isDigit x || "[\"'#*\\".toList.contains x)
  return n

/-- A member of an object. -/
def objectMember : Reader Unit := do
  if ← succeeds (mark "...") then
    let _ ← r.expr
    return ()
  let words ← many (memberWord ["async", "get", "set"])
  let star ← succeeds (mark "*")
  let _ ← memberName
  if (← sees "(") || (← sees "<") then
    let _ ← signature r
    block r
  else
    require (words.isEmpty && !star)
    if ← succeeds (mark ":") then
      let _ ← r.expr
    else
      let _ ← optionally do
        markNotBefore "=" (· = '=')
        r.expr

def object : Reader Unit := do
  mark "\x7b"
  let _ ← commaSeparated comma (objectMember r)
  closing "\x7d"

/-- The arguments of a call. -/
def arguments : Reader Unit := do
  mark "("
  let _ ← commaSeparated comma do
    let _ ← optionally (mark "...")
    r.expr
  closing ")"

/-- After these the types in angle brackets belong to the operand in front of them. -/
def endsTypeArguments (c : Option Char) : Bool :=
  match c with
  | none => true
  | some c => "()],;:.?`|&=!\x7d".toList.contains c

/-- A member of an operand. -/
def access : Reader Unit := do
  if ← sees "?." then
    require (!(((← get).rest.drop 2).head?.any Text.isDigit))
    mark "?."
    if (← sees "(") || (← sees "[") || (← sees "`") then return ()
  else markNotBefore "." (· = '.')
  let _ ← optionally (rawMark "#")
  let _ ← word

def index : Reader Unit := do
  mark "["
  r.sequence
  closing "]"

/-- What may stand behind the operand of `new`, before its arguments. -/
def memberSuffix : Reader Unit := access <|> index r

/-- What may stand behind an operand. -/
def suffix : Reader Unit := do
  let c ← get
  match c.rest.head? with
  | some '.' | some '?' => access
  | some '[' => index r
  | some '(' => arguments r
  | some '`' => let _ ← template
  | some '!' => sameLine; markNotBefore "!" (· = '=')
  | some '+' => sameLine; mark "++"
  | some '-' => sameLine; mark "--"
  | some '<' =>
    typeArguments r
    require (endsTypeArguments (← get).rest.head?)
  | _ => fail

/-- The word that begins an expression and what it is by itself. -/
def wordOperand : Reader Shape := do
  let w ← word
  let is (v : String) : Bool := w = v.toList
  if is "true" || is "false" then return { kind := .boolean }
  if is "this" then return { kind := .this }
  if is "null" || is "super" || is "undefined" then return { kind := .other }
  if is "import" then
    require ((← sees "(") || (← sees "."))
    return { kind := .other }
  require (!Token.reserved.contains w)
  return { kind := .identifier }

/-- A class that is a value. -/
def classValue : Reader Shape := do
  let s ← r.classLike
  return { s with kind := .classExpression }

/-- An operand without prefixes and suffixes, other than one with `new`. -/
def plainOperand : Reader Shape := do
  let c ← get
  match c.rest.head? with
  | none => fail
  | some '(' => shape .other do mark "("; r.sequence; closing ")"
  | some '[' => shape .array (listBody r)
  | some '\x7b' => shape .object (object r)
  | some '"' | some '\'' => shape .string do let _ ← string
  | some '`' => shape .template do let _ ← template
  | some '/' => shape .other do let _ ← pattern
  | some '#' => shape .other do rawMark "#"; let _ ← word
  | some '@' => classValue r
  | some '<' =>
    require r.markup
    r.element
    endToken
    return { kind := .other }
  | some x =>
    if Text.isDigit x || x = '.' then shape .number do let _ ← number
    else if ← seesKeyword "class" then classValue r
    else
      let f : Reader Shape := do
        require ((← seesKeyword "function") || (← seesKeyword "async"))
        functionValue r
      f <|> wordOperand

/-- An operand that may be made by `new`. -/
def madeOperand : Reader Shape := do
  if !(← seesKeyword "new") then plainOperand r
  else
    keyword "new"
    if ← sees "." then
      access
      return { kind := .other }
    let made ← spanned (some .constructed) do
      let s ← if ← seesKeyword "new" then r.expr else plainOperand r
      let more ← many (memberSuffix r)
      return if more.isEmpty then s else { kind := .other }
    let _ ← optionally (typeArguments r)
    let _ ← optionally (arguments r)
    return { kind := .new, children := [made] }

/-- An operand with its suffixes. -/
def operand : Reader Shape := do
  let s ← madeOperand r
  let more ← many (suffix r)
  return if more.isEmpty then s else { kind := .other }

def prefixWord : Reader Unit := do
  let w ← word
  require (["typeof", "void", "delete", "await"].any (·.toList = w))

def prefixMark : Reader Unit := do
  if ← succeeds (mark "++") then return ()
  if ← succeeds (mark "--") then return ()
  if ← succeeds (mark "!") then return ()
  if ← succeeds (mark "~") then return ()
  if ← succeeds (mark "+") then return ()
  mark "-"

/-- A type in front of an operand that is taken to be of it. -/
def cast : Reader Unit := do
  require (!r.markup)
  mark "<"
  r.type
  mark ">"

/-- An operand with its prefixes. -/
def unary : Reader Shape := do
  let before ← many (prefixMark <|> prefixWord <|> cast r)
  if before.isEmpty then operand r
  else
    let _ ← operand r
    return { kind := .other }

/-- The operators between two operands, the longer ones first. -/
def operators : List Text := List.map String.toList [
  ">>>=", "===", "!==", "**=", "<<=", ">>=", ">>>", "&&=", "||=", "??=", "==", "!=", "<=", ">=", "&&",
  "||", "??", "**", "<<", ">>", "+=", "-=", "*=", "/=", "%=", "&=", "|=", "^=", "+", "-", "*", "/", "%",
  "&", "|", "^", "<", ">", "="]

def operator : Reader Unit := do
  let c ← get
  require (!"=>".toList.isPrefixOf c.rest)
  match operators.find? fun o => o.isPrefixOf c.rest with
  | some o => mark o
  | none =>
    let w ← word
    require (w = "in".toList || w = "instanceof".toList)

/-- A type behind an operand that it is taken to be of. -/
def ascription : Reader Unit := do
  sameLine
  let w ← word
  require (w = "as".toList || w = "satisfies".toList)
  if ← succeeds (keyword "const") then return ()
  r.type

/-- The two branches of a condition. -/
def branches : Reader Unit := do
  mark "?"
  let _ ← r.expr
  mark ":"
  let _ ← r.expr

/-- What stands behind an operand and makes it part of a larger expression. -/
def continuation : Reader Unit := do
  if ← succeeds (ascription r) then return ()
  if (← sees "?") && !(← sees "??") then branches r
  else
    operator
    let _ ← r.expr

/-- Nothing can follow these within an expression. -/
def yielded : Reader Shape := do
  keyword "yield"
  let _ ← optionally do
    sameLine
    let _ ← optionally (mark "*")
    r.expr
  return { kind := .other }

/-- An expression without commas. -/
def expr : Reader Shape := do
  if ← seesKeyword "yield" then yielded r
  else
    let plain : Reader Shape := do
      let s ← unary r
      let more ← many (continuation r)
      return if more.isEmpty then s else { kind := .other }
    if ← seesArrow then arrow r <|> plain else plain

/-- Expressions with commas between them. -/
def sequence : Reader Unit := do
  let _ ← r.expr
  let _ ← many do
    comma
    r.expr

end CodeManifest.Source.Reader
