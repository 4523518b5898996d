import CodeManifest.Text

namespace CodeManifest.Sql

/-- A name, with the knowledge whether it was quoted. -/
structure Ident where
  name : Text
  quoted : Bool
  deriving DecidableEq, Repr

mutual

/-- An expression. Functions that are not known go by the name they were called with, known ones by
their canonical name. -/
inductive Expr where
  | null
  | bool (value : Bool)
  | string (text : Text)
  | number (text : Text)
  | national (text : Text)
  | raw (text : Text)
  | hex (digits : Text)
  | bits (digits : Text)
  | bytes (text : Text)
  | column (path : List Ident)
  | variable (text : Text)
  | star
  | placeholder (text : Text)
  | parameter (name : Expr)
  | call (name : Ident) (args : List Expr)
  | known (name : String) (args : List Expr)
  | cast (value : Expr) (type : DataType)
  | neg (value : Expr)
  | unary (op : String) (value : Expr)
  | binary (op : String) (left right : Expr)
  | after (value : Expr) (op : String)
  | between (value low high : Expr)
  | member (value : Expr) (items : List Expr)
  | paren (value : Expr)
  | tuple (items : List Expr)
  | array (items : List Expr)
  | element (value : Expr) (items : List Expr)
  | dot (value field : Expr)
  | whenThen (test value : Expr)
  | choice (subject : List Expr) (cases : List Expr) (otherwise : List Expr)
  | interval (value : List Expr) (unit : Text)
  | query (text : Text)
  | alias (value : Expr) (name : Ident)

/-- A data type. A type that no dialect knows is `user`, written as a path of names. -/
inductive DataType where
  | base (name : String) (params : List Expr)
  | array (element : DataType)
  | nested (name : String) (items : List DataType)
  | user (path : List Ident) (params : List Expr)
  | span (unit : Text)
  | object (name : Text)

end

instance : Inhabited Expr := ⟨.null⟩
instance : Inhabited DataType := ⟨.object []⟩

namespace Expr

/-- The word an expression goes by where a list of columns is expected: the last name of a column,
the text of a literal, the name of a function that is not known. Anything else has none. -/
def label : Expr → Text
  | .null => "NULL"
  | .string t | .number t | .national t | .raw t | .hex t | .bits t | .bytes t | .variable t => t
  | .column path => (path.getLast?.map (·.name)).getD []
  | .star => "*"
  | .call name _ => name.name
  | .cast value _ => value.label
  | .paren (.number t) | .paren (.string t) | .neg (.number t) | .neg (.string t) => t
  | .known _ (.string t :: _) | .known _ (.number t :: _) => t
  | .alias _ name => name.name
  | .dot _ field => field.label
  | .parameter (.column [i]) => i.name
  | _ => []

/-- The name of a column that is declared under the expression. Only names and literals name one. -/
def columnName : Expr → Text
  | .column [i] => i.name
  | .null => "NULL"
  | .string t | .number t => t
  | .star => "*"
  | _ => []

end Expr

end CodeManifest.Sql
