import CodeManifest.Value

namespace CodeManifest.Json

/-- A sixteen-bit unit as an escape. -/
def unit (n : Nat) : Text := '\\' :: 'u' :: Text.hexadecimal 4 n

/-- One character inside a string. A character beyond the first plane is two units. -/
def escape (c : Char) : Text :=
  let n := c.toNat
  if c = '"' then ['\\', '"']
  else if c = '\\' then ['\\', '\\']
  else if c = '\n' then ['\\', 'n']
  else if c = '\r' then ['\\', 'r']
  else if c = '\t' then ['\\', 't']
  else if c = '\x0c' then ['\\', 'f']
  else if c = '\x08' then ['\\', 'b']
  else if 32 ≤ n && n < 127 then [c]
  else if n < 0x10000 then unit n
  else unit (0xD800 + (n - 0x10000) / 0x400) ++ unit (0xDC00 + (n - 0x10000) % 0x400)

def string (t : Text) : Text := '"' :: t.flatMap escape ++ ['"']

/-- A text with halves of surrogate pairs, which are units by themselves. -/
def points (ps : List Text.Point) : Text := '"' :: ps.flatMap escapePoint ++ ['"']
where
  escapePoint : Text.Point → Text
    | .char c => escape c
    | .half k => unit (Text.Point.unitOf k)

/-- The name of an entry. A key that is no text is written as its text. -/
def key : Value → Text
  | .halved ps => points ps
  | k => string k.toText

/-- A number with a fraction; what is none has a name. -/
def number : Double → Text
  | .nan => "NaN"
  | .infinite s => if s then "-Infinity" else "Infinity"
  | x => x.render

/-- A line feed and the blanks of a level. -/
def newline (level : Nat) : Text := '\n' :: List.replicate (2 * level) ' '

/-- Items on lines of their own between brackets; none leave the brackets empty. -/
def block (start stop : Char) (level : Nat) (items : List Text) : Text :=
  if items.isEmpty then [start, stop]
  else
    start :: newline (level + 1) ++ Text.join (',' :: newline (level + 1)) items ++ newline level ++ [stop]

mutual

/-- The text of a value at a level. -/
def write (level : Nat) : Value → Text
  | .null => "null"
  | .bool b => if b then "true" else "false"
  | .int n => Text.ofInt n
  | .float x => number x
  | .text t => string t
  | .halved ps => points ps
  | .list items => block '[' ']' level (writeItems (level + 1) items)
  | .map entries => block '{' '}' level (writeEntries (level + 1) entries)
  | .date d => string d.render
  | .time i zoned => string (Value.toText (.time i zoned))

def writeItems (level : Nat) : List Value → List Text
  | [] => []
  | v :: vs => write level v :: writeItems level vs

def writeEntries (level : Nat) : List (Value × Value) → List Text
  | [] => []
  | (k, v) :: es => (key k ++ ':' :: ' ' :: write level v) :: writeEntries level es

end

end CodeManifest.Json
