import CodeManifest.Text

namespace CodeManifest.Source

inductive Kind where
  | program
  | exportStatement
  | exportClause
  | exportSpecifier
  | function
  | generator
  | arrow
  | functionExpression
  | generatorExpression
  | lexicalDeclaration
  | variableDeclaration
  | declarator
  | classDeclaration
  | abstractClass
  | classExpression
  | classBody
  | method
  | decorator
  | parameters
  | required
  | optional
  | restPattern
  | assignmentPattern
  | identifier
  | this
  | string
  | template
  | number
  | boolean
  | array
  | object
  | new
  | typeClause
  | predicateClause
  | assertsClause
  | accessibility
  | computedName
  | comment
  | error
  /-- a keyword or a mark, which has no meaning of its own -/
  | token
  | other
  deriving DecidableEq, Repr, Inhabited

namespace Kind

/-- The kinds of functions that are values. -/
def isFunctionValue (k : Kind) : Bool := [arrow, functionExpression, generatorExpression].contains k

def isFunctionDeclaration (k : Kind) : Bool := [function, generator].contains k

def isVariableDeclaration (k : Kind) : Bool := [lexicalDeclaration, variableDeclaration].contains k

def isClassDeclaration (k : Kind) : Bool := [classDeclaration, abstractClass].contains k

end Kind

/-- What a node is to its parent. -/
inductive Label where
  | declaration
  | value
  | source
  | name
  | body
  | parameters
  | parameter
  | pattern
  | type
  | returnType
  | left
  | right
  | constructed
  deriving DecidableEq, Repr

structure Node where
  kind : Kind
  label : Option Label := none
  text : Text := []
  line : Nat := 1
  /-- is there anything in the node that its grammar rejects? -/
  damaged : Bool := false
  children : List Node := []
  deriving Inhabited

namespace Node

/-- Tokens are the nodes that have no name. -/
def isNamed (n : Node) : Bool := n.kind ≠ .token

/-- The first child of a kind. -/
def childOf? (n : Node) (k : Kind) : Option Node := n.children.find? (·.kind = k)

/-- The children of a kind. -/
def childrenOf (n : Node) (k : Kind) : List Node := n.children.filter (·.kind = k)

/-- The first child under a label. -/
def child? (n : Node) (l : Label) : Option Node := n.children.find? (·.label = some l)

/-- Is a keyword or mark among the children? -/
def hasToken (n : Node) (t : Text) : Bool := n.children.any fun c => c.kind = .token && c.text = t

end Node

end CodeManifest.Source
