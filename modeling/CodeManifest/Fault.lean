import CodeManifest.Value

namespace CodeManifest

namespace Fault

/-- What a fault is about. -/
inductive Kind where
  | general
  | configuration
  | scan
  | source
  | schema
  | dialect
  | manifest
  deriving DecidableEq, Repr

/-- The more general kinds, the nearest first. -/
def Kind.ancestors : Kind → List Kind
  | general => []
  | source | schema => [scan, general]
  | _ => [general]

end Fault

/-- A fault: its kind, its message, and details under names. -/
structure Fault where
  kind : Fault.Kind
  message : Text
  details : List (Value × Value) := []

namespace Fault

/-- The message, with the details in notation behind it where there are any. -/
def text (f : Fault) : Text :=
  if f.details.isEmpty then f.message
  else f.message ++ ' ' :: '(' :: (Value.map f.details).notate ++ [')']

/-- A fault of a scan names its file, if one is known. -/
def inFile (kind : Kind) (message file : Text) : Fault :=
  ⟨kind, message, if file.isEmpty then [] else [(.text "file", .text file)]⟩

/-- A text that is not in a dialect. -/
def inDialect (message dialect : Text) : Fault := ⟨.dialect, message, [(.text "dialect", .text dialect)]⟩

def configuration (message : Text) (details : List (Value × Value)) : Fault :=
  ⟨.configuration, message, details⟩

/-- A list of texts as a value. -/
def texts (ts : List Text) : Value := .list (ts.map .text)

end Fault

end CodeManifest
