import CodeManifest.Source.Symbol
import CodeManifest.Tool.Category
import CodeManifest.Tool.TypeText

namespace CodeManifest.Tool

/-- What a tool expects as a parameter. -/
structure Parameter where
  type : Text
  required : Bool := true
  description : Option Text := none
  values : Option (List Text) := none
  deriving DecidableEq, Repr

/-- The parameter of a type. -/
def Parameter.ofType (t : TypeInfo) (required : Bool) : Parameter :=
  ⟨t.kind, required, t.description, t.values⟩

/-- A callable of the project. No two of its parameters have one name. -/
structure Descriptor where
  name : Text
  description : Text
  parameters : Keyed Text Parameter := []
  distinct : (Keyed.keys parameters).Nodup := by first | exact Keyed.nodup_keys_ofList _ | decide
  returnType : Text := "any"
  category : Text := "general"
  sourceFile : Text := []
  examples : List Text := []
  deriving DecidableEq, Repr

/-- Tools are told apart by their files and names. -/
def Descriptor.key (t : Descriptor) : Text × Text := (t.sourceFile, t.name)

/-- The parameters of a tool; of two with one name the last counts. -/
def parametersOf (ps : List Source.Parameter) : Keyed Text Parameter :=
  Keyed.ofList (ps.map fun p => (p.name, .ofType (.ofText p.type) (!p.isOptional)))

/-- The tool a symbol with a name makes. Its documentation counts before the sentence of its name. -/
def Descriptor.ofSymbol (name : Text) (s : Source.Symbol) (path : Text) : Descriptor :=
  let parameters := parametersOf s.parameters
  let described := describe name (.ofNat parameters.length) (parameters.any fun p => namesIdentity p.1)
  let documented := (s.doc.map (·.description)).getD []
  let returned := match s.returnType with
    | some t => some t
    | none => if s.isAsync then some "Promise<any>".toList else none
  { name
    description := if documented.isEmpty then described else documented
    parameters
    returnType := (TypeInfo.ofText returned).kind
    category := (Category.ofName name path).name
    sourceFile := path
    examples := (s.doc.map (·.examples)).getD [] }

/-- A way to make a tool of a symbol with a name in a file. It may fail, with a message; a tool that it
makes is told apart by that file and name. -/
structure Builder where
  build (name : Text) (s : Source.Symbol) (path : Text) : Except Text Descriptor
  key_of_build {name : Text} {s : Source.Symbol} {path : Text} {t : Descriptor} :
    build name s path = .ok t → t.key = (path, name)

/-- The way that is used unless another is given. It never fails. -/
def Builder.standard : Builder where
  build name s path := .ok (.ofSymbol name s path)
  key_of_build h := by
    cases h
    rfl

end CodeManifest.Tool
