import CodeManifest.Source.Read.Class
import CodeManifest.Source.Read.Markup

namespace CodeManifest.Source.Reader

variable (r : Deeper)

/-- A statement of no interest. -/
def unnamed (s : Reader Unit) : Reader Shape := shape .other s

/-- A function with its body; without one it is only a signature. -/
def functionDeclaration : Reader Shape := do
  let async ← optionally (keywordNode "async")
  keyword "function"
  let star ← succeeds (mark "*")
  let name ← spanned (some .name) do
    let _ ← Reader.name
    return { kind := .identifier }
  let s ← signature r
  if ← sees "\x7b" then
    block r
    return { kind := if star then .generator else .function, children := async.toList ++ [name] ++ s }
  else
    semicolon
    return { kind := .other }

/-- A class that has a name. -/
def classDeclaration : Reader Shape := do
  let s ← r.classLike
  require (s.children.any (·.label = some .name))
  return s

/-- A variable with its type and its value. -/
def declarator : Reader Node := placed none do
  let name ← spanned (some .name) boundPattern
  let _ ← optionally (markNotBefore "!" (· = '='))
  let _ ← optionally (typeClause r)
  let value ← optionally do
    mark "="
    placed (some .value) r.expr
  return { kind := .declarator, children := name :: value.toList }

/-- Variables; `kind` is that of their declaration. -/
def declarators (kind : Kind) : Reader Shape := do
  let d ← declarator r
  let ds ← many do
    comma
    declarator r
  return { kind, children := d :: ds }

/-- The word that declares variables, and the kind of such a declaration. -/
def variableWord : Reader Kind := do
  let w ← word
  let is (v : String) : Bool := w = v.toList
  let kind ← (do
    if is "const" || is "let" then return Kind.lexicalDeclaration
    if is "var" then return .variableDeclaration
    if is "await" then
      keyword "using"
      return .other
    require (is "using")
    sameLine
    return .other)
  let c ← get
  require (c.rest.head?.any fun x => Token.isNameStart x || isBracket x)
  return kind

def variableDeclaration : Reader Shape := do
  let kind ← variableWord
  let s ← declarators r kind
  semicolon
  return s

/-- A declaration whose name and body are passed over. -/
def enumeration : Reader Unit := do
  let _ ← optionally (keyword "const")
  keyword "enum"
  let _ ← name
  brackets "\x7b"

def interface : Reader Unit := do
  keyword "interface"
  let _ ← name
  let _ ← optionally (typeParameters r)
  let _ ← optionally do
    keyword "extends"
    commaSeparated comma r.type
  brackets "\x7b"

def typeAlias : Reader Unit := do
  keyword "type"
  sameLine
  let _ ← name
  let _ ← optionally (typeParameters r)
  mark "="
  r.type
  semicolon

/-- A namespace, or a module by its name or path. -/
def namespaceBlock : Reader Unit := do
  let w ← word
  let is (v : String) : Bool := w = v.toList
  if is "global" then block r
  else
    require (is "namespace" || is "module")
    sameLine
    if ← succeeds string then pure ()
    else
      let _ ← name
      dotted
    if ← sees "\x7b" then block r else semicolon

/-- A declaration of what exists elsewhere. -/
def ambient : Reader Unit := do
  keyword "declare"
  sameLine
  require (← ahead word)
  let _ ← r.statement

/-- What may be declared, at the top or behind `export`. -/
def declaration : Reader Shape := do
  let w ← ahead word
  if !w then
    require (← sees "@")
    classDeclaration r
  else
    let c ← get
    let t := c.rest.take ((Token.nameLength? c.rest).getD 0)
    let is (v : String) : Bool := t = v.toList
    if is "function" || is "async" then functionDeclaration r
    else if is "class" || is "abstract" then classDeclaration r
    else if is "const" then unnamed enumeration <|> variableDeclaration r
    else if is "let" || is "var" || is "using" || is "await" then variableDeclaration r
    else if is "enum" then unnamed enumeration
    else if is "interface" then unnamed (interface r)
    else if is "type" then unnamed (typeAlias r)
    else if is "namespace" || is "module" || is "global" then unnamed (namespaceBlock r)
    else if is "declare" then unnamed (ambient r)
    else fail

/-- What an import says of the file it names. -/
def importAttributes : Reader Unit := do
  let _ ← optionally do
    let w ← word
    require (w = "with".toList || w = "assert".toList)
    brackets "\x7b"

/-- Does a file follow, behind the word `from`? -/
def seesSource : Reader Bool := ahead do
  keyword "from"
  string

/-- The brace behind a list of names, which may be missing in front of the file they come from. -/
def closeNames : Reader Unit := do
  if !(← succeeds (mark "\x7d")) then
    require (← seesSource)
    damage

/-- The names in an import. -/
def importNames : Reader Unit := do
  mark "\x7b"
  let name : Reader Unit := do
    require (!(← seesSource))
    let _ ← word
  let _ ← many (comma <|> name <|> do let _ ← string)
  closeNames

def importStatement : Reader Unit := do
  keyword "import"
  require (!(← sees "(") && !(← sees "."))
  let _ ← many (mark "*" <|> comma <|> importNames <|> do let _ ← word)
  if ← succeeds (mark "=") then
    let _ ← r.expr
  else
    let _ ← string
    importAttributes
  semicolon

/-- The file that names are exported from. -/
def exportSource : Reader Node := do
  keyword "from"
  let n ← placed (some .source) do
    let _ ← string
    return { kind := .string }
  importAttributes
  return n

/-- A name in an export clause, and the name it is exported as. -/
def exportSpecifier : Reader Node := placed none do
  let exportName : Reader Node := spanned (some .name) do
    if ← succeeds string then return { kind := .string }
    let _ ← word
    return { kind := .identifier }
  let renamed : Reader Unit := do
    keyword "as"
    let _ ← exportName
  let plain : Reader Node := do
    let n ← exportName
    let _ ← optionally renamed
    require ((← sees ",") || (← sees "\x7d") || (← seesSource))
    return n
  let typed : Reader Node := do
    keyword "type" <|> keyword "typeof"
    plain
  let n ← plain <|> typed
  return { kind := .exportSpecifier, children := [n] }

def exportClause : Reader Node := placed none do
  mark "\x7b"
  let names ← commaSeparated comma exportSpecifier
  closeNames
  return { kind := .exportClause, children := names }

/-- What stands behind `export default`. -/
def defaultExport : Reader Node := do
  match ← optionally (placed (some .declaration) (declaration r)) with
  | some d => return d
  | none =>
    let v ← spanned (some .value) r.expr
    semicolon
    return v

/-- What stands behind `export`. -/
def exported : Reader (List Node) := do
  let _ ← optionally do
    keyword "type"
    require ((← sees "*") || (← sees "\x7b"))
  if ← succeeds (mark "*") then
    let _ ← optionally do
      keyword "as"
      let _ ← optionally string
      optionally word
    let s ← exportSource
    semicolon
    return [s]
  if ← sees "\x7b" then
    let clause ← exportClause
    let s ← optionally exportSource
    semicolon
    return clause :: s.toList
  if ← succeeds (mark "=") then
    let _ ← r.expr
    semicolon
    return []
  if ← succeeds (do keyword "as"; keyword "namespace"; name) then
    semicolon
    return []
  if ← succeeds (keyword "default") then return [← defaultExport r]
  if ← seesKeyword "import" then
    importStatement r
    return []
  return [← placed (some .declaration) (declaration r)]

def exportStatement : Reader Shape := do
  let decorators ← many (decorator r)
  keyword "export"
  let parts ← exported r
  return { kind := .exportStatement, children := decorators ++ parts }

/-- An expression in brackets. -/
def condition : Reader Unit := do
  mark "("
  r.sequence
  closing ")"

def body : Reader Unit := do
  let _ ← r.statement

/-- What stands in the brackets behind `for`. -/
def forHead : Reader Unit := do
  mark "("
  let _ ← optionally ((do
    let _ ← variableWord
    let _ ← declarators r .other) <|> r.sequence)
  let isOver ← succeeds (keyword "of" <|> keyword "in")
  if isOver then r.sequence
  else if ← succeeds (mark ";") then
    let _ ← optionally r.sequence
    mark ";"
    let _ ← optionally r.sequence
  mark ")"

/-- The cases of a choice. -/
def switchBody : Reader Unit := do
  mark "\x7b"
  let _ ← many do
    if ← succeeds (keyword "case") then r.sequence else keyword "default"
    mark ":"
    many do
      require (!(← seesKeyword "case") && !(← seesKeyword "default") && !(← sees "\x7d"))
      r.statement
  mark "\x7d"

/-- A statement that begins with a word which is none of an expression. -/
def controlStatement (w : Text) : Reader Unit := do
  let is (v : String) : Bool := w = v.toList
  let _ ← word
  if is "if" then
    condition r
    body r
    let _ ← optionally do
      keyword "else"
      body r
  else if is "while" || is "with" then
    condition r
    body r
  else if is "do" then
    body r
    keyword "while"
    condition r
    let _ ← optionally (mark ";")
  else if is "for" then
    let _ ← optionally (keyword "await")
    forHead r
    body r
  else if is "switch" then
    condition r
    switchBody r
  else if is "try" then
    block r
    let _ ← optionally do
      keyword "catch"
      let _ ← optionally (brackets "(")
      block r
    let _ ← optionally do
      keyword "finally"
      block r
  else if is "return" || is "throw" then
    let _ ← optionally do
      sameLine
      r.sequence
    semicolon
  else if is "break" || is "continue" then
    let _ ← optionally do
      sameLine
      name
    semicolon
  else
    require (is "debugger")
    semicolon

/-- A statement with a label in front. -/
def labelled : Reader Unit := do
  let _ ← name
  mark ":"
  body r

def expressionStatement : Reader Unit := do
  require (!(← seesKeyword "function") && !(← seesKeyword "class"))
  r.sequence
  semicolon

/-- A statement. -/
def statement : Reader Shape := do
  let c ← get
  match c.rest.head? with
  | none => fail
  | some ';' => unnamed (mark ";")
  | some '\x7b' => unnamed (block r)
  | some '@' => exportStatement r <|> classDeclaration r
  | some _ =>
    let w := c.rest.take ((Token.nameLength? c.rest).getD 0)
    let is (v : String) : Bool := w = v.toList
    if is "export" then exportStatement r
    else if is "import" then unnamed (importStatement r) <|> unnamed (expressionStatement r)
    else
      declaration r <|> unnamed (controlStatement r w) <|> unnamed (labelled r) <|>
        unnamed (expressionStatement r)

/-- The next node of a file with the comments in front of it. -/
def fileItem : Reader (List Node) := do
  let before ← ownComments
  require (!(← atEnd))
  let n ← placed none (statement r) <|> stray
  return before ++ [n]

/-- The line at the very beginning of a file that names the program which runs it. -/
def interpreterLine : Reader (List Node) := do
  let n ← optionally (placed none do
    require (← sees "#!")
    let _ ← measured fun t => some (t.takeWhile (! Cursor.endsLine ·)).length
    return { kind := .other })
  return n.toList

/-- A whole file. -/
def file : Reader Node := do
  let first ← interpreterLine
  let items ← many (fileItem r)
  let last ← comments
  let c ← get
  return { kind := .program, damaged := c.damaged, children := first ++ items.flatten ++ last }

end Reader

namespace Deeper

/-- The readers one level up from `r`. -/
def next (r : Unit → Deeper) (markup : Bool) : Deeper where
  markup := markup
  expr := fun c => Reader.expr (r ()) c
  sequence := fun c => Reader.sequence (r ()) c
  type := fun c => Reader.type (r ()) c
  statement := fun c => Reader.statement (r ()) c
  classLike := fun c => Reader.classLike (r ()) c
  element := fun c => Reader.element (r ()) c

/-- The readers of texts that nest at most `n` deep. -/
def ofDepth (markup : Bool) : Nat → Deeper
  | 0 => ⟨markup, .fail, .fail, .fail, .fail, .fail, .fail⟩
  | n + 1 => next (fun _ => ofDepth markup n) markup

end Deeper

end CodeManifest.Source
