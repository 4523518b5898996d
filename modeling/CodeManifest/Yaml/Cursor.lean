import CodeManifest.Text

namespace CodeManifest.Yaml

/-- Why a YAML text has no value. -/
inductive Defect where
  /-- the text is not in the language, or a tag does not fit what it stands on -/
  | malformed
  /-- a number, a date or a character that is out of its range -/
  | outOfRange
  /-- a text under the tag of truth values that is none of their names -/
  | noTruthValue
  /-- nothing at all under the tag of a number -/
  | noDigits
  /-- a text under the tag of times that is none -/
  | noTime
  deriving DecidableEq, Repr

/-- A place in a text. -/
structure Cursor where
  rest : Text
  /-- how many characters are in front of the place -/
  index : Nat := 0
  line : Nat := 0
  column : Nat := 0

def endsLine (c : Char) : Bool :=
  c = '\n' || c = '\r' || c = '\u0085' || c = '\u2028' || c = '\u2029'

/-- Nothing more, or the end of a line. -/
def isEnd (c : Option Char) : Bool := c.all endsLine

/-- Nothing more, the end of a line, or a space. -/
def isGap (c : Option Char) : Bool := c.all fun c => c = ' ' || endsLine c

/-- Nothing more, the end of a line, a space, or a tab. -/
def isWide (c : Option Char) : Bool := c.all fun c => c = ' ' || c = '\t' || endsLine c

/-- The characters of names. -/
def isWord (c : Char) : Bool := Text.isDigit c || c.isAlpha || c = '-' || c = '_'

/-- Marks at the beginning of a line that end a document. -/
def isDocumentMark (t : Text) : Bool :=
  (t.take 3 = "---".toList || t.take 3 = "...".toList) && isWide t[3]?

namespace Cursor

/-- The place behind the next character. A mark of byte order takes no column. -/
def next (c : Cursor) : Cursor :=
  match c.rest with
  | [] => c
  | x :: r =>
    if endsLine x && !(x = '\r' && r.head? = some '\n') then ⟨r, c.index + 1, c.line + 1, 0⟩
    else ⟨r, c.index + 1, c.line, if x = '\uFEFF' then c.column else c.column + 1⟩

def drop : Nat → Cursor → Cursor
  | 0, c => c
  | n + 1, c => drop n c.next

end Cursor

/-- A reader of a part of a text. -/
abbrev Scan := StateT Cursor (Except Defect)

namespace Scan

def malformed {α : Type} : Scan α := fun _ => .error .malformed

/-- Fails unless the condition holds. -/
def require (b : Bool) : Scan Unit := if b then pure () else malformed

/-- The character so many places further on. -/
def peekAt (n : Nat) : Scan (Option Char) := do return (← get).rest[n]?

def peek : Scan (Option Char) := peekAt 0

/-- Takes so many characters. -/
def advance (n : Nat) : Scan Text := fun c => .ok (c.rest.take n, c.drop n)

/-- Takes characters as long as they are of a kind. -/
def takeWhile (p : Char → Bool) : Scan Text := do advance ((← get).rest.takeWhile p).length

def skip (c : Char) : Scan Unit := do let _ ← takeWhile (· = c)

/-- Takes one end of a line, if it stands here. The usual ones all count as a line feed. -/
def lineBreak : Scan Text := do
  match (← get).rest with
  | '\r' :: '\n' :: _ => let _ ← advance 2; return ['\n']
  | c :: _ =>
    if c = '\r' || c = '\n' || c = '\u0085' then let _ ← advance 1; return ['\n']
    else if endsLine c then advance 1
    else return []
  | [] => return []

/-- Takes a comment, if one stands here. -/
def comment : Scan Unit := do
  if (← peek) = some '#' then let _ ← takeWhile (! endsLine ·)

/-- Takes what may follow on the line of a directive or of the head of a block: a comment. -/
def restOfLine : Scan Unit := do
  skip ' '
  comment
  require (isEnd (← peek))
  let _ ← lineBreak

end Scan

end CodeManifest.Yaml
