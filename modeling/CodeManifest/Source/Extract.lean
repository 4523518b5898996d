import CodeManifest.Source.Node
import CodeManifest.Source.Symbol
import CodeManifest.Text.Blank

namespace CodeManifest.Source

namespace Node

/-- The names that one statement exports without declaring them. Exports from other files are none. -/
def exportedNames (n : Node) : List Text :=
  if n.kind ≠ .exportStatement || (n.child? .source).isSome then []
  else
    let value := match n.child? .value with
      | some v => if v.kind = .identifier then [v.text] else []
      | none => []
    let clause := match n.childOf? .exportClause with
      | some c => (c.childrenOf .exportSpecifier).filterMap fun s => (s.child? .name).map (·.text)
      | none => []
    value ++ clause

/-- All names a file exports apart from what it declares as exported. -/
def exports (root : Node) : List Text := root.children.flatMap exportedNames

/-- The nodes with those that stand before each among them, the nearest first. -/
def withBefore (before : List Node) : List Node → List (List Node × Node)
  | [] => []
  | n :: ns => (before, n) :: withBefore (n :: before) ns

/-- The documentation right before a node. Decorators may stand between the two. -/
def documentation (before : List Node) : Option DocComment :=
  match before.find? fun n => n.isNamed && n.kind ≠ .decorator with
  | some n => if n.kind = .comment then DocComment.parse n.text else none
  | none => none

/-- A binding pattern as the name of a parameter, and whether it takes all that is left. -/
def patternName (p : Node) : Text × Bool :=
  if p.kind = .restPattern then (((p.children.find? isNamed).getD p).text, true)
  else (Text.trim (Text.squeeze p.text), false)

/-- The type of a literal that is given as a default. -/
def literalType (value : Node) : Option Text :=
  match value.kind with
  | .string | .template => some "string".toList
  | .number => some "number".toList
  | .boolean => some "boolean".toList
  | .array => some "any[]".toList
  | .object => some "{}".toList
  | .new =>
    match value.child? .constructed with
    | some c => if c.kind = .identifier then some c.text else none
    | none => none
  | _ => none

/-- The text behind the colon of an annotation. -/
def annotatedType (clause : Node) : Option Text :=
  match clause.children.find? fun c => !(c.kind = .token && c.text = [':']) with
  | some c =>
    let t := Text.trim c.text
    if t.isEmpty then none else some t
  | none => none

/-- The type of a parameter that takes all that is left, where none is written. -/
def restType : Text := "any[]"

/-- A parameter with a type, an optional mark, or a default. The parameter `this` is none. -/
def typedParameter? (n : Node) : Option Parameter :=
  match n.child? .pattern with
  | none => none
  | some p =>
    if p.kind = .this then none
    else
      let (name, isRest) := patternName p
      let value := n.child? .value
      let annotated := (n.child? .type).bind annotatedType
      let annotated := if annotated.isNone && isRest then some restType else annotated
      some {
        name
        type := annotated.orElse fun _ => value.bind literalType
        default := value.map (·.text)
        isOptional := n.kind = .optional
        isRest }

/-- A parameter that is a pattern by itself. -/
def plainParameter? (n : Node) : Option Parameter :=
  if n.kind = .assignmentPattern then
    (n.child? .left).map fun l =>
      let value := n.child? .right
      { name := (patternName l).1, type := value.bind literalType, default := value.map (·.text) }
  else
    let (name, isRest) := patternName n
    some { name, type := if isRest then some restType else none, isRest }

def parameter? (n : Node) : Option Parameter :=
  match n.kind with
  | .required | .optional => typedParameter? n
  | .identifier | .restPattern | .assignmentPattern => plainParameter? n
  | _ => none

/-- The parameters of a function: those in its list, or the only one, which stands without brackets. -/
def parametersOf (f : Node) : List Parameter :=
  match f.child? .parameters with
  | some ps => ps.children.filterMap parameter?
  | none =>
    match f.child? .parameter with
    | some p => [{ name := p.text }]
    | none => []

/-- The return type of a function. A type predicate is a truth value, an assertion yields nothing. -/
def returnTypeOf (f : Node) : Option Text :=
  match f.child? .returnType with
  | none => none
  | some t =>
    match t.kind with
    | .predicateClause => some "boolean".toList
    | .assertsClause => some "void".toList
    | _ => annotatedType t

/-- The symbol of a function-like node. -/
def symbol (kind : SymbolKind) (name : Option Text) (f : Node) (isExported : Bool)
    (before : List Node) (className : Option Text) : Symbol :=
  { kind
    name
    parameters := parametersOf f
    returnType := returnTypeOf f
    isAsync := f.hasToken "async"
    isExported
    doc := documentation before
    className
    line := f.line }

/-- What a statement at the top declares, with what stands before the statement. -/
structure TopLevel where
  declaration : Node
  before : List Node
  isExport : Bool

/-- The declaration of an export statement. A function that is exported as a value counts as one. -/
def exportedDeclaration? (n : Node) : Option Node :=
  match n.child? .declaration with
  | some d => some d
  | none => (n.child? .value).filter (·.kind.isFunctionValue)

def topLevel (root : Node) : List TopLevel :=
  (withBefore [] root.children).filterMap fun (before, n) =>
    if n.kind = .exportStatement then (exportedDeclaration? n).map (⟨·, before, true⟩)
    else some ⟨n, before, false⟩

/-- Is a declaration of this name exported? -/
def isExported (names : List Text) (t : TopLevel) (name : Option Text) : Bool :=
  t.isExport || name.any names.contains

/-- The functions declared at the top, exported or not. -/
def declarations (root : Node) : List Symbol :=
  root.topLevel.filterMap fun t =>
    let d := t.declaration
    if d.kind.isFunctionDeclaration || (t.isExport && d.kind.isFunctionValue) then
      let name := (d.child? .name).map (·.text)
      some (symbol .declaration name d (isExported root.exports t name) t.before none)
    else none

/-- The variable of a declarator and the function it is bound to. -/
def boundFunction? (d : Node) : Option (Option Text × Node) :=
  match d.child? .value with
  | none => none
  | some v =>
    if v.kind.isFunctionValue then
      let name := (d.child? .name).bind fun n => if n.kind = .identifier then some n.text else none
      some (name, v)
    else none

/-- The variables at the top that are bound to functions. -/
def bindings (root : Node) : List Symbol :=
  root.topLevel.flatMap fun t =>
    if t.declaration.kind.isVariableDeclaration then
      ((t.declaration.childrenOf .declarator).filterMap boundFunction?).map fun (name, f) =>
        symbol .binding name f (isExported root.exports t name) t.before none
    else []

def isPrivate (m : Node) : Bool := (m.childOf? .accessibility).any (·.text = "private".toList)

def isAccessor (m : Node) : Bool := m.hasToken "get" || m.hasToken "set"

/-- The name of a method. A computed name is none, and neither is an empty one. -/
def methodName (m : Node) : Option Text :=
  match m.child? .name with
  | none => none
  | some n =>
    if n.kind = .computedName then none
    else
      let t := if n.kind = .string then unquoted n.text else n.text
      if t.isEmpty then none else some t
where
  isQuote (c : Char) : Bool := c = '\'' || c = '"'
  unquoted (t : Text) : Text := ((t.dropWhile isQuote).reverse.dropWhile isQuote).reverse

/-- Is the member a method that others may call by its name? -/
def isPublicMethod (m : Node) : Bool := m.kind = .method && !isPrivate m && !isAccessor m

/-- The methods of the classes at the top. They are exported with their class. -/
def methods (root : Node) : List Symbol :=
  root.topLevel.flatMap fun t =>
    if t.declaration.kind.isClassDeclaration then
      let className := (t.declaration.child? .name).map (·.text)
      let exported := isExported root.exports t className
      let members := ((t.declaration.child? .body).map (·.children)).getD []
      ((withBefore [] members).filter fun e => isPublicMethod e.2).map fun (before, m) =>
        symbol .method (methodName m) m exported before className
    else []

/-- All callable symbols of a file. -/
def symbols (root : Node) : FileSymbols :=
  { declarations := root.declarations
    bindings := root.bindings
    methods := root.methods
    hasErrors := root.damaged }

end Node

end CodeManifest.Source
