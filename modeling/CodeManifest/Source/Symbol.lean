import CodeManifest.Source.DocComment

namespace CodeManifest.Source

/-- The construct a symbol comes from. -/
inductive SymbolKind where
  | declaration
  | binding
  | method
  deriving DecidableEq, Repr

def SymbolKind.name : SymbolKind → Text
  | .declaration => "declaration"
  | .binding => "binding"
  | .method => "method"

/-- A parameter of a function. -/
structure Parameter where
  name : Text
  type : Option Text := none
  default : Option Text := none
  isOptional : Bool := false
  isRest : Bool := false
  deriving DecidableEq, Repr

/-- A function, a variable bound to a function, or a method. -/
structure Symbol where
  kind : SymbolKind
  name : Option Text
  parameters : List Parameter := []
  returnType : Option Text := none
  isAsync : Bool := false
  isExported : Bool := false
  doc : Option DocComment := none
  className : Option Text := none
  line : Nat := 0
  deriving DecidableEq

/-- The name of a symbol behind the name of its class. -/
def Symbol.qualifiedName (s : Symbol) : Text :=
  match s.className with
  | some c =>
    if c.isEmpty then own else c ++ '.' :: s.name.getD "None"
  | none => own
where
  own : Text :=
    match s.name with
    | some n => if n.isEmpty then "[anonymous]" else n
    | none => "[anonymous]"

/-- All symbols of a file. -/
structure FileSymbols where
  declarations : List Symbol
  bindings : List Symbol
  methods : List Symbol
  hasErrors : Bool

/-- Declarations, then bindings, then methods. -/
def FileSymbols.candidates (f : FileSymbols) : List Symbol := f.declarations ++ f.bindings ++ f.methods

end CodeManifest.Source
