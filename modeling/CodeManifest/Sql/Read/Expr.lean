import CodeManifest.Sql.Read.Name
import CodeManifest.Sql.Function

namespace CodeManifest.Sql

/-- The readers of one level further in. Each is called behind a token that has been taken. -/
structure Deeper where
  expr : Reader (Option Expr)
  equality : Reader (Option Expr)
  unary : Reader (Option Expr)
  typed : Reader (Option Expr)
  dataType : Reader (Option DataType)
  query : Reader Bool

namespace Reader

variable (d : Dialect) (r : Deeper)

/-- The kinds of token that begin a data type. -/
def typeName? (t : Token) : Option String :=
  match t.kind with
  | .type n => some n
  | .keyword "SET" => if d = .mysql then some "SET" else none
  | _ => none

/-- The type that a quoted or plain name stands for when it is read by itself. -/
def typeNameOf? (name : Text) : Option String :=
  match Token.scan d name with
  | some (t :: _) => typeName? d t
  | _ => none

/-- The unsigned counterparts of the numeric types. -/
def unsigned? : String → Option String
  | "BIGINT" => some "UBIGINT"
  | "INT" => some "UINT"
  | "MEDIUMINT" => some "UMEDIUMINT"
  | "SMALLINT" => some "USMALLINT"
  | "TINYINT" => some "UTINYINT"
  | "DECIMAL" => some "UDECIMAL"
  | "DOUBLE" => some "UDOUBLE"
  | _ => none

def isNested (n : String) : Bool := ["ARRAY", "LIST", "MAP", "NULLABLE", "STRUCT", "OBJECT"].contains n

def isTimestamp (n : String) : Bool :=
  ["TIME", "TIMETZ", "TIMESTAMP", "TIMESTAMPTZ", "TIMESTAMPLTZ", "TIMESTAMPNTZ"].contains n

/-- One parameter of a type, as in `VARCHAR(10 CHAR)`: an expression and perhaps a word behind it. A
plain name is a word in capitals. -/
def typeParam : Reader (Option Expr) := do
  match ← r.typed with
  | none => pure none
  | some e =>
    let _ ← anyWord
    match e with
    | .column [i] => pure (some (.variable (Text.asciiUpper i.name)))
    | e => pure (some e)

/-- The dots and names that follow the first name of a type of the user's own. -/
def typePath (first : Ident) : Reader (List Ident) := do
  let more ← many do
    if ← mark "." then
      match ← plainName true with
      | some i => pure (some i)
      | none => pure (some ⟨"None", false⟩)
    else pure none
  pure (first :: more)

/-- `[]` and `ARRAY` behind a type make arrays of it. In a table definition an array may give its
size, elsewhere a bracket with something in it belongs to the expression. -/
def arraySuffix (schema : Bool) (afterArray : Bool) (t : DataType) : Reader DataType := do
  let start ← takes fun t => t.kind = .type "ARRAY"
  let (t, _, _) ← grow step (t, start, afterArray || start)
  pure t
where
  step : DataType × Bool × Bool → Reader (Option (DataType × Bool × Bool))
    | (t, keywordSeen, afterArray) => attempt do
      let bracket ← mark "["
      if !bracket && !keywordSeen then pure none
      else if ← guarded afterArray (mark "]") then pure (some (t, false, false))
      else
        let sizes ← csv r.expr
        if !sizes.isEmpty && !schema then pure none
        else
          let closed ← mark "]"
          pure (some (.array t, false, !closed && sizes.isEmpty && !bracket))

/-- A data type. `expression` tells whether it may turn out to be the call of a function of that
name, `names` whether other names than the known ones count. -/
def dataType (schema expression names : Bool) : Reader (Option DataType) := attempt do
  let mut user : Option (List Ident) := none
  let mut base : Option String := none
  match ← take? fun t => (typeName? d t).isSome with
  | some t =>
    base := typeName? d t
    if base = some "PSEUDO_TYPE" || base = some "OBJECT_IDENTIFIER" then
      return some (.object (Text.asciiUpper t.text))
  | none =>
    if !names then return none
    match ← take? fun t => t.kind = .quoted || t.kind = .word with
    | none => return none
    | some t =>
      base := typeNameOf? d t.text
      if base.isNone then
        if d = .mysql then return none
        user := some (← typePath ⟨t.text, t.kind = .quoted⟩)
  let nested := base.any isNested
  let mut params : List Expr := []
  let mut items : List DataType := []
  let mut called := false
  if ← mark "(" then
    called := true
    if nested then items ← csv r.dataType
    else if base = some "ENUM" || (base = some "SET" && d = .mysql) then params ← csv r.equality
    else params ← csv (typeParam r)
    if !(← mark ")") then return none
  if ← guarded nested (mark "<") then
    items ← csv r.dataType
    must (mark ">")
  if base.any isTimestamp then
    let timeOnly := base = some "TIME" || base = some "TIMETZ"
    if ← words ["WITH", "TIME", "ZONE"] then
      called := false
      base := some (if timeOnly then "TIMETZ" else "TIMESTAMPTZ")
    else if ← words ["WITH", "LOCAL", "TIME", "ZONE"] then
      called := false
      base := some "TIMESTAMPLTZ"
    else if ← words ["WITHOUT", "TIME", "ZONE"] then called := false
  let mut result : DataType := .base "" []
  if base = some "INTERVAL" then
    match ← plainWord with
    | some unit =>
      let last ← (do if ← words ["TO"] then plainWord else return none)
      let units := Text.join " TO " (unit :: last.toList)
      result := .span (Text.asciiUpper units)
    | none => result := .base "INTERVAL" []
  else match user with
    | some path => result := .user path params
    | none =>
      let n := base.getD ""
      if ← word "UNSIGNED" then
        match unsigned? n with
        | some u => result := .base u params
        | none => reject
      else if items.isEmpty then result := .base n params
      else result := .nested n items
  if expression && called then
    if !(← sees (·.kind = .string)) then return none
  let afterArray := base = some "ARRAY" && !called
  return some (← arraySuffix r schema afterArray result)

/-- Strings that follow one another are one string in parts. -/
def strings (first : Text) : Reader Expr := do
  let more ← many string
  if more.isEmpty then pure (.string first)
  else pure (.known "CONCAT" ((first :: more).map .string))

/-- An expression in parentheses, a query in parentheses, or several expressions. -/
def parenthesis : Reader (Option Expr) := do
  if !(← mark "(") then return none
  let (isQuery, source) ← withSource r.query
  if isQuery then
    must (mark ")")
    return some (.query source)
  let alone ← r.expr
  let more ← csvAfter r.expr (← get).length
  let comma := !more.isEmpty
  must (mark ")")
  match alone, comma with
  | none, false => return some (.tuple [])
  | some e, false => return some (.paren e)
  | e, true => return some (.tuple (e.toList ++ more))

/-- Literals, the star, and whatever stands in parentheses. -/
def primary : Reader (Option Expr) := do
  match ← peek? with
  | none => pure none
  | some t =>
    match t.kind with
    | .string => do skip; return some (← strings t.text)
    | .national => do skip; return some (.national t.text)
    | .raw => do skip; return some (.raw t.text)
    | .number => do skip; return some (.number t.text)
    | .hex => do skip; return some (.hex t.text)
    | .bits => do skip; return some (.bits t.text)
    | .bytes => do skip; return some (.bytes t.text)
    | .type "NULL" => do skip; return some .null
    | .keyword "TRUE" => do skip; return some (.bool true)
    | .keyword "FALSE" => do skip; return some (.bool false)
    | .keyword "INTRODUCER" => do
      skip
      match ← string with
      | some s => return some (.unary (String.ofList (t.text ++ [' '])) (.string s))
      | none => return some (.column [⟨t.text, false⟩])
    | .mark "*" => do skip; return some .star
    | .mark "@@" => do
      skip
      match ← nameExpr d true with
      | some e => return some (.unary "@@" e)
      | none => reject
    | .mark "." => do
      match ← second? with
      | some n =>
        if n.kind = .number then do skip; skip; return some (.number ('0' :: '.' :: n.text))
        else pure none
      | none => pure none
    | .mark "(" => parenthesis r
    | _ => pure none

/-- The keywords that may be the name of a function. -/
private def callableKeywords : List String := [
  "COLLATE", "COMMAND", "CURRENT_DATE", "CURRENT_SCHEMA", "CURRENT_TIME", "CURRENT_TIMESTAMP",
  "CURRENT_USER", "FILTER", "FIRST", "FORMAT", "GLOB", "INDEX", "ISNULL", "ILIKE", "INSERT",
  "LEFT", "LIKE", "LOCALTIME", "LOCALTIMESTAMP", "MERGE", "NEXT", "OFFSET", "PRIMARY KEY", "RANGE",
  "REPLACE", "RIGHT", "RLIKE", "ROW", "SESSION_USER", "TABLE", "TRUNCATE", "UNNEST", "WINDOW",
  "XOR", "ALL", "ANY", "EXISTS", "SOME"]

private def isCallable (t : Token) : Bool :=
  match t.kind with
  | .word | .quoted | .type _ => true
  | .keyword k =>
    callableKeywords.contains k || (d = .mysql && ["DATABASE", "MOD", "SCHEMA", "VALUES"].contains k)
  | _ => false

/-- The keywords that call a function without parentheses. -/
private def bareCalls : List String := [
  "CURRENT_DATE", "CURRENT_TIME", "CURRENT_TIMESTAMP", "CURRENT_USER", "LOCALTIME",
  "LOCALTIMESTAMP", "SESSION_USER"]

/-- What may stand behind the call of a function: a filter, a group, a window. -/
def window : Reader Unit := do
  if ← keyword "FILTER" then wrapped toClosing
  if ← words ["WITHIN", "GROUP"] then wrapped toClosing
  if ← words ["IGNORE", "NULLS"] then pure ()
  else if ← words ["RESPECT", "NULLS"] then pure ()
  if ← keyword "OVER" then
    if ← seesMark "(" then wrapped toClosing
    else let _ ← need (name d true)

/-- One argument of a call. -/
def argument : Reader (Option Expr) := do
  let _ ← keyword "DISTINCT"
  let (isQuery, source) ← withSource r.query
  if isQuery then return some (.query source)
  match ← r.expr with
  | none => return none
  | some e =>
    let e ← (do
      if ← mark "=>" then return .binary "=>" e (← need r.expr)
      else if ← keyword "ALIAS" then
        match ← name d true with
        | some i => return .alias e i
        | none => reject
      else return e)
    if ← keyword "ORDER BY" then
      let _ ← csv do
        let o ← r.expr
        let _ ← keyword "ASC"
        let _ ← keyword "DESC"
        pure o
    return some e

/-- `CASE` with its arms; the keyword itself has been taken. -/
def choice : Reader Expr := do
  let subject ← r.expr
  let arms ← many do
    if ← keyword "WHEN" then
      let c ← need r.expr
      must (keyword "THEN")
      let v ← need r.expr
      pure (some (Expr.whenThen c v))
    else pure none
  let otherwise ← (do
    if ← keyword "ELSE" then return some (← need r.expr) else return none)
  must (keyword "END")
  if arms.isEmpty then reject
  return .choice subject.toList arms otherwise.toList

/-- `IF`, with its arguments in parentheses or in words. -/
def conditional : Reader (Option Expr) := do
  if ← mark "(" then
    let args ← csv (argument d r)
    must (mark ")")
    return some (.known "IF" args)
  else attempt do
    match ← r.expr with
    | none => return none
    | some c =>
      let _ ← keyword "THEN"
      let v ← need r.expr
      let e ← (do if ← keyword "ELSE" then r.expr else return none)
      let _ ← keyword "END"
      return some (.known "IF" (c :: v :: e.toList))

/-- The inside of the calls that have a grammar of their own. -/
def specialCall? (callee : String) : Option (Reader Expr) :=
  match callee with
  | "CAST" | "TRY_CAST" | "SAFE_CAST" => some do
    let e ← need r.expr
    must (keyword "ALIAS")
    let t ← need r.dataType
    return .cast e t
  | "CONVERT" =>
    if d = .mssql then some do
      let (_, t) ← withSource (need r.dataType)
      let _ ← mark ","
      let args ← csv (argument d r)
      return .call ⟨"CONVERT", false⟩ (.variable (Text.asciiUpper t) :: args)
    else if d = .mysql then some do
      let e ← need r.expr
      if ← keyword "USING" then
        let charset ← need (name d true)
        return .call ⟨"CONVERT", false⟩ [.binary "USING" e (.column [charset])]
      else
        must (mark ",")
        let t ← need r.dataType
        return .cast e t
    else none
  | "EXTRACT" => some do
    let part ← need anyWord
    if !(← keyword "FROM") then must (mark ",")
    let e ← need r.expr
    return .known "EXTRACT" [.binary "FROM" (.variable (Text.asciiUpper part)) e]
  | "TRIM" => some do
    let side ← wordOf? ["BOTH", "LEADING", "TRAILING"]
    let e ← need r.expr
    if ← keyword "FROM" then
      let f ← need r.expr
      let e := match side with
        | some s => Expr.unary (s ++ " ") e
        | none => e
      return .known "TRIM" [.binary "FROM" e f]
    else
      let more ← csvAfter r.expr (← get).length
      return .known "TRIM" (e :: more)
  | "POSITION" => some do
    let e ← need r.expr
    let more ← csvAfter r.expr (← get).length
    return .known "POSITION" (e :: more)
  | "SUBSTRING" | "SUBSTR" => some do
    let args ← csv (argument d r)
    let start ← (do if ← keyword "FROM" then r.expr else return none)
    let size ← (do if ← keyword "FOR" then r.expr else return none)
    return .known "SUBSTRING" (args ++ start.toList ++ size.toList)
  | _ => none

/-- The call of a function. `any` lets nearly every token name one, `plain` keeps known functions
from being anything but calls, and behind a dot the keywords lose their meaning. -/
def functionCall (any plain afterDot : Bool) : Reader (Option Expr) := attempt do
  match ← peek?, ← second? with
  | none, _ => return none
  | some t, u =>
    let upper := String.ofList (Text.asciiUpper t.text)
    let bare := t.kind ≠ .quoted && t.kind ≠ .string && !afterDot
    if bare && upper = "CASE" then
      skip
      let e ← choice r
      window d
      return some e
    if bare && upper = "IF" then
      skip
      match ← conditional d r with
      | some e => window d; return some e
      | none => return none
    if bare && upper = "ANY" && !u.any (Token.isMark "(") then
      skip
      let e ← need r.unary
      return some (.unary "ANY " e)
    if !u.any (Token.isMark "(") then
      match t.kind with
      | .keyword k =>
        if !afterDot && bareCalls.contains k then
          skip
          return some (.known k [])
        else return none
      | _ => return none
    if if any then isReserved t else !isCallable d t then return none
    skip
    skip
    match if plain || t.kind = .quoted then none else specialCall? d r upper with
    | some inside =>
      let e ← inside
      must (mark ")")
      window d
      return some e
    | none =>
      let args ← csv (argument d r)
      must (mark ")")
      window d
      match if plain || t.kind = .quoted then none else Function.canonical? d upper with
      | some n => return some (.known n args)
      | none => return some (.call ⟨t.text, t.kind = .quoted⟩ args)

/-- A literal, a call or a name. -/
def field (any : Bool) : Reader (Option Expr) :=
  either (primary d r) (either (functionCall d r any false false) (nameExpr d any))

/-- What may stand behind a dot: calls come before literals, and every token is a name. -/
def member : Reader (Option Expr) :=
  either (functionCall d r true true true) (either (primary d r) (nameExpr d true))

/-- Brackets: an element of what stands before, or a list. -/
def brackets (this : Option Expr) : Reader (Option Expr) := do
  if !(← mark "[") then return this
  let items ← csv r.expr
  must (mark "]")
  let first := match this with
    | none => Expr.array items
    | some (.column [⟨n, false⟩]) =>
      if Text.asciiUpper n = "ARRAY".toList then .array items else .element (.column [⟨n, false⟩]) items
    | some e => .element e items
  let e ← grow (fun e => do
    if ← mark "[" then
      let items ← csv r.expr
      must (mark "]")
      pure (some (.element e items))
    else pure none) first
  return some e

private def jsonOperators : List String := ["->", "->>", "#>", "#>>"]

/-- Casts, dots and other operators that bind most tightly. -/
def suffixStep (this : Expr) : Reader (Option Expr) := do
  if ← mark "::" then
    let t ← need (dataType d r false false true)
    return some (.cast this t)
  else if ← mark "." then
    let f ← need (member d r)
    let joined := match this, f with
      | .column path, .column [i] => Expr.column (path ++ [i])
      | e, f => .dot e f
    return (← brackets r (some joined))
  else
    match ← take? fun t => jsonOperators.any fun m => t.isMark m with
    | some t =>
      let f ← need (either (field d r false) r.unary)
      return some (.binary (String.ofList t.text) this f)
    | none => return none

def suffixes (this : Expr) : Reader Expr := do
  match ← brackets r (some this) with
  | some e => grow (suffixStep d r) e
  | none => reject

/-- A column or any other operand with what follows it. -/
def column : Reader (Option Expr) := do
  match ← field d r false with
  | some e => return some (← suffixes d r e)
  | none => brackets r none

/-- A time span: its amount and its unit. -/
def interval : Reader (Option Expr) := attempt do
  if !(← takes fun t => t.kind = .type "INTERVAL") then return none
  if !(← sees fun t => t.kind = .string || t.kind = .number || t.isMark "(" || t.isMark "-") then
    return none
  let amount ← need r.unary
  if ← seesKeyword "ALIAS" then return some (.interval [amount] [])
  match ← take? fun t => t.kind = .word || mayName t with
  | some t =>
    let amount := match amount with
      | .number n => Expr.string n
      | e => e
    return some (.interval [amount] (Text.asciiUpper t.text))
  | none => return some (.interval [amount] [])

/-- An operand: a time span, a literal behind the name of its type, or a column. -/
def typed : Reader (Option Expr) := do
  match ← interval r with
  | some e => return some e
  | none =>
    let start ← get
    match ← dataType d r false true false with
    | none => column d r
    | some t =>
      match ← primary d r with
      | some (.string s) =>
        let e ← suffixes d r (.string s)
        return some (.cast e t)
      | some (.number s) =>
        let e ← suffixes d r (.number s)
        return some (.cast e t)
      | _ =>
        set start
        column d r

/-- Signs, negation and complement in front of an operand. -/
def unary : Reader (Option Expr) := do
  if ← mark "+" then r.unary
  else if ← mark "-" then return some (.neg (← need r.unary))
  else if ← keyword "NOT" then return some (.unary "NOT " (← need r.equality))
  else if ← mark "~" then return some (.unary "~" (← need r.unary))
  else if ← mark "|/" then return some (.known "SQRT" [← need r.unary])
  else if ← mark "||/" then return some (.known "CBRT" [← need r.unary])
  else typed d r

def atTimeZone (e : Expr) : Reader Expr :=
  grow (fun e => do
    if ← words ["AT", "TIME", "ZONE"] then return some (.binary "AT TIME ZONE" e (← need r.unary))
    else return none) e

/-- Operands that operators of one level join, read from the left. -/
def joined (operand : Reader (Option Expr)) (operator : Reader (Option String)) :
    Reader (Option Expr) := do
  let first ← operand
  let step := fun (left : Option Expr) => do
    match ← operator with
    | none => return none
    | some op =>
      match left, ← operand with
      | some l, some e => return some (some (.binary op l e))
      | _, _ => reject
  grow step first

/-- The operator that one of the marks stands for. -/
def operatorOf (marks : List (String × String)) (keywords : List (String × String)) :
    Reader (Option String) := do
  match ← take? fun t =>
      marks.any (fun m => t.isMark m.1) || keywords.any fun k => t.isKeyword k.1 with
  | none => return none
  | some t =>
    match t.kind with
    | .mark m => return marks.lookup m
    | .keyword k => return keywords.lookup k
    | _ => return none

def power : Reader (Option Expr) :=
  if d = .postgresql then joined (unary d r) (operatorOf [("^", "^")] []) else unary d r

def factorOperand : Reader (Option Expr) := do
  match ← power d r with
  | some e => return some (← atTimeZone r e)
  | none => return none

/-- Products. `DIV` with nothing behind it is not an operator. -/
def factor : Reader (Option Expr) := do
  let first ← factorOperand d r
  let step := fun (left : Option Expr) => do
    let start ← get
    match ← operatorOf [("*", "*"), ("/", "/"), ("<->", "<->")] [("DIV", "DIV")] with
    | none => return none
    | some op =>
      match left, ← factorOperand d r with
      | some l, some e => return some (some (Expr.binary op l e))
      | _, _ => if op = "DIV" then do set start; return none else reject
  grow step first

def term : Reader (Option Expr) :=
  joined (factor d r) (operatorOf [("+", "+"), ("-", "-"), ("%", "%")]
    [("MOD", "%"), ("COLLATE", "COLLATE")])

/-- Shifts are written with two marks. -/
def shift : Reader (Option String) := attempt do
  if ← mark "<" then return if ← mark "<" then some "<<" else none
  else if ← mark ">" then return if ← mark ">" then some ">>" else none
  else return none

/-- Sums that bit operators or string concatenation join: what a default value may be. -/
def bitwise : Reader (Option Expr) :=
  let marks := [("&", "&"), ("|", "|"), ("??", "??")] ++
    (if d = .postgresql then [("#", "#")] else [("^", "^")]) ++
    (if d = .mysql then [] else [("||", "||")])
  joined (term d r) (either (operatorOf marks []) shift)

/-- The tests that may stand behind an operand. -/
def rangeTest (this : Expr) : Reader (Option Expr) := do
  if ← keyword "BETWEEN" then
    let lo ← need (bitwise d r)
    must (keyword "AND")
    let hi ← need (bitwise d r)
    return some (.between this lo hi)
  else if ← keyword "IN" then
    if ← mark "(" then
      let items ← csv (argument d r)
      must (mark ")")
      return some (.member this items)
    else
      let e ← need (column d r)
      return some (.member this [e])
  else if ← keyword "OVERLAPS" then return some (.binary "OVERLAPS" this (← need (bitwise d r)))
  else
    let likes := [("LIKE", "LIKE"), ("ILIKE", "ILIKE"), ("GLOB", "GLOB"), ("RLIKE", "RLIKE"),
      ("SIMILAR TO", "SIMILAR TO"), ("MATCH", "MATCH")]
    let marks := [("@>", "@>"), ("<@", "<@"), ("&&", "&&"), ("~~", "LIKE"), ("~~*", "ILIKE"),
      ("~", "~"), ("~*", "~*"), ("@@", "@@"), ("?", "?"), ("?|", "?|"), ("?&", "?&"), ("&<", "&<"),
      ("&>", "&>")]
    match ← operatorOf (if d = .postgresql then marks else []) likes with
    | none => return none
    | some op =>
      let e ← need (bitwise d r)
      if ← keyword "ESCAPE" then
        let s ← need (primary d r)
        return some (.binary "ESCAPE" (.binary op this e) s)
      else return some (.binary op this e)

/-- The tests with `IS`. -/
def isTest (this : Expr) : Reader (Option Expr) := attempt do
  if !(← keyword "IS") then return none
  let negated ← keyword "NOT"
  if ← words ["DISTINCT", "FROM"] then
    let e ← need (bitwise d r)
    return some (.binary (if negated then "IS NOT DISTINCT FROM" else "IS DISTINCT FROM") this e)
  match ← bitwise d r with
  | none => return none
  | some e =>
    let test := Expr.binary "IS" this e
    return some (if negated then .unary "NOT " test else test)

/-- Sums with the tests on them. -/
def range : Reader (Option Expr) := do
  match ← bitwise d r with
  | none => return none
  | some this =>
    let negated ← keyword "NOT"
    let test ← (do
      match ← rangeTest d r this with
      | some e => return e
      | none =>
        if ← keyword "ISNULL" then return .binary "IS" this .null
        else if ← guarded negated (takes fun t => t.kind = .type "NULL") then
          return .binary "IS" this .null
        else return this)
    let test ← (do if ← keyword "NOTNULL" then return .unary "NOT " (.binary "IS" test .null) else return test)
    let test := if negated then Expr.unary "NOT " test else test
    let e ← grow (isTest d r) test
    return some e

def comparison : Reader (Option Expr) :=
  joined (range d r) (operatorOf [(">", ">"), (">=", ">="), ("<", "<"), ("<=", "<=")] [])

def equality : Reader (Option Expr) :=
  joined (comparison d r)
    (operatorOf [("=", "="), ("==", "="), ("<>", "<>"), ("!=", "<>"), ("<=>", "<=>")] [])

def conjunction : Reader (Option Expr) :=
  joined (equality d r) (operatorOf (if d = .mysql then [("&&", "AND")] else [])
    ([("AND", "AND")] ++ if d = .mysql then [("XOR", "XOR")] else []))

/-- A whole expression. -/
def expression : Reader (Option Expr) :=
  joined (conjunction d r)
    (operatorOf ((if d = .mysql then [("||", "OR")] else []) ++ [(":=", ":=")]) [("OR", "OR")])

/-- An expression that may have another name behind it. -/
def aliased : Reader (Option Expr) := do
  match ← expression d r with
  | none => return none
  | some e =>
    let named ← keyword "ALIAS"
    match ← either (name d named) (do
        match ← string with
        | some s => return some ⟨s, true⟩
        | none => return none) with
    | some i => return some (.alias e i)
    | none => return some e

/-- An expression with a direction to sort in. -/
def ordered : Reader (Option Expr) := do
  match ← expression d r with
  | none => return none
  | some e =>
    let _ ← keyword "ASC"
    let _ ← keyword "DESC"
    if !(← words ["NULLS", "FIRST"]) then
      let _ ← words ["NULLS", "LAST"]
    return some e

end Reader

end CodeManifest.Sql
