import CodeManifest.Keyed
import CodeManifest.Yaml.Scalar

namespace CodeManifest.Yaml

inductive Directive where
  | version (major : Nat)
  | tag (handle start : Text)
  | other
  deriving DecidableEq, Repr

inductive Token where
  | directive (d : Directive)
  | documentStart
  | documentEnd
  | blockSequence
  | blockMapping
  | blockEnd
  | flowSequence
  | flowSequenceEnd
  | flowMapping
  | flowMappingEnd
  | blockEntry
  | flowEntry
  | key
  | value
  | alias (name : Text)
  | anchor (name : Text)
  /-- a tag: the handle that its end stands behind, if there is one -/
  | tag (handle : Option Text) (ending : Text)
  | scalar (text : Text) (isPlain : Bool)
  deriving DecidableEq, Repr

open Scan

/-- An alias or an anchor behind its mark. -/
def anchorName : Scan Text := do
  let _ ← advance 1
  let name ← takeWhile isWord
  require (!name.isEmpty)
  let c ← peek
  require (isWide c || c.any "?:,]\x7d%@`".toList.contains)
  return name

def isAddressChar (c : Char) : Bool := isWord c || ";/?:@&=+$,.!~*'()[]%".toList.contains c

/-- One byte behind a percent sign. -/
def escapedByte : Scan UInt8 := do
  let _ ← advance 1
  let ds ← advance 2
  match hexadecimal? ds with
  | some n => require (ds.length = 2); return n.toUInt8
  | none => malformed

def escapedBytes : Nat → List UInt8 → Scan (List UInt8)
  | 0, bytes => return bytes
  | fuel + 1, bytes => do
    if (← peek) = some '%' then escapedBytes fuel (bytes ++ [← escapedByte]) else return bytes

def addressFor : Nat → Text → Scan Text
  | 0, done => return done
  | fuel + 1, done => do
    match ← peek with
    | some '%' =>
      let bytes ← escapedBytes ((← get).rest.length + 1) []
      match String.fromUTF8? ⟨bytes.toArray⟩ with
      | some s => addressFor fuel (done ++ s.toList)
      | none => malformed
    | some c => if isAddressChar c then addressFor fuel (done ++ (← advance 1)) else return done
    | none => return done

/-- The address that a tag is or ends in. -/
def address : Scan Text := do
  let t ← addressFor ((← get).rest.length + 1) []
  require (!t.isEmpty)
  return t

/-- The handle of a tag: exclamation marks around a name, or one alone. -/
def handle : Scan Text := do
  require ((← peek) = some '!')
  let _ ← advance 1
  if (← peek) = some ' ' then return ['!']
  let name ← takeWhile isWord
  require ((← peek) = some '!')
  let _ ← advance 1
  return '!' :: name ++ ['!']

/-- Does an exclamation mark stand in the word at the front of the text? -/
def hasHandle (t : Text) : Bool := (t.takeWhile fun c => !isGap (some c)).contains '!'

/-- A tag: an address in angle brackets, a mark alone, or an address behind a handle. -/
def tag : Scan Token := do
  let next ← peekAt 1
  let t ←
    if next = some '<' then do
      let _ ← advance 2
      let a ← address
      require ((← peek) = some '>')
      let _ ← advance 1
      pure (Token.tag none a)
    else if isWide next then do
      let _ ← advance 1
      pure (.tag none ['!'])
    else do
      let h ← if hasHandle ((← get).rest.drop 1) then handle else advance 1
      pure (.tag (some h) (← address))
  require (isGap (← peek))
  return t

def numeral : Scan Nat := do
  let ds ← takeWhile Text.isDigit
  require (!ds.isEmpty)
  return Text.natOfDigits ds

/-- A directive behind its mark. -/
def directive : Scan Directive := do
  let _ ← advance 1
  let name ← takeWhile isWord
  require (!name.isEmpty)
  require (isGap (← peek))
  let d ←
    if name = "YAML".toList then do
      skip ' '
      let major ← numeral
      require ((← advance 1) = ['.'])
      let _ ← numeral
      require (isGap (← peek))
      pure (Directive.version major)
    else if name = "TAG".toList then do
      skip ' '
      let h ← handle
      require ((← peek) = some ' ')
      skip ' '
      let a ← address
      require (isGap (← peek))
      pure (.tag h a)
    else do
      let _ ← takeWhile (! endsLine ·)
      pure .other
  restOfLine
  return d

/-- A place where something stands that may turn out to be a key. -/
structure Candidate where
  /-- how many tokens are in front of it -/
  position : Nat
  /-- must it be a key, by its column? -/
  required : Bool
  index : Nat
  line : Nat
  column : Nat

/-- A text in the middle of being read. -/
structure Scanner where
  cursor : Cursor
  /-- the tokens so far, the last first -/
  tokens : List Token := []
  /-- the candidate of each depth of brackets -/
  candidates : Keyed Nat Candidate := []
  /-- how many brackets are open -/
  depth : Nat := 0
  /-- the columns of the open blocks, the innermost first -/
  blocks : List Nat := []
  /-- may a key begin here? -/
  keyAllowed : Bool := true

namespace Scanner

/-- The length up to which a key stands on one line. -/
def maxKeyLength : Nat := 1024

def malformed {α : Type} : Except Defect α := .error .malformed

def inFlow (s : Scanner) : Bool := s.depth ≠ 0

/-- The first column in which something inside the innermost block may stand. -/
def least (s : Scanner) : Nat :=
  match s.blocks with
  | [] => 0
  | b :: _ => b + 1

def push (t : Token) (s : Scanner) : Scanner := { s with tokens := t :: s.tokens }

/-- Reads something that stands behind the tokens so far. -/
def scan {α : Type} (r : Scan α) (s : Scanner) : Except Defect (α × Scanner) := do
  let (a, c) ← r s.cursor
  return (a, { s with cursor := c })

def advance (n : Nat) (s : Scanner) : Scanner := { s with cursor := s.cursor.drop n }

/-- The tokens with one more behind the first `n`. -/
def insertAt (n : Nat) (t : Token) (s : Scanner) : Scanner :=
  let behind := s.tokens.length - n
  { s with tokens := s.tokens.take behind ++ t :: s.tokens.drop behind }

/-- Candidates whose line is over or that are too long are none any more. -/
def dropStale (s : Scanner) : Except Defect Scanner := do
  let isStale := fun (c : Candidate) =>
    c.line ≠ s.cursor.line || s.cursor.index - c.index > maxKeyLength
  if s.candidates.any fun e => isStale e.2 && e.2.required then malformed
  else return { s with candidates := s.candidates.filter fun e => !isStale e.2 }

/-- Gives up the candidate of this depth. -/
def dropCandidate (s : Scanner) : Except Defect Scanner := do
  match Keyed.get? s.depth s.candidates with
  | some c =>
    if c.required then malformed
    else return { s with candidates := s.candidates.filter (·.1 ≠ s.depth) }
  | none => return s

/-- Notes that what stands here may be a key. One in the column of the innermost block must be. -/
def addCandidate (s : Scanner) : Except Defect Scanner := do
  if s.keyAllowed then
    let c : Candidate := {
      position := s.tokens.length
      required := !s.inFlow && s.blocks.head? = some s.cursor.column
      index := s.cursor.index
      line := s.cursor.line
      column := s.cursor.column }
    let s ← s.dropCandidate
    return { s with candidates := Keyed.put s.depth c s.candidates }
  else return s

/-- Closes the innermost blocks as long as they are of a kind. -/
def closeWhile (p : Nat → Bool) (s : Scanner) : Scanner :=
  if s.inFlow then s
  else
    let closed := s.blocks.takeWhile p
    { s with
      tokens := List.replicate closed.length .blockEnd ++ s.tokens
      blocks := s.blocks.dropWhile p }

/-- Closes the blocks to the right of this place. -/
def closeBlocks (s : Scanner) : Scanner := s.closeWhile (s.cursor.column < ·)

def closeAll (s : Scanner) : Scanner := s.closeWhile fun _ => true

/-- Opens a block in a column if none is open there. `place` puts its token in. -/
def openBlock (column : Nat) (place : Scanner → Scanner) (s : Scanner) : Scanner :=
  if s.least ≤ column then { place s with blocks := column :: s.blocks } else s

/-- Takes a mark of one character that opens or closes nothing by its column. -/
def mark (t : Token) (s : Scanner) : Scanner := s.advance 1 |>.push t

def flowStart (t : Token) (s : Scanner) : Except Defect Scanner := do
  let s ← s.addCandidate
  return { s.mark t with depth := s.depth + 1, keyAllowed := true }

def flowEnd (t : Token) (s : Scanner) : Except Defect Scanner := do
  let s ← s.dropCandidate
  return { s.mark t with depth := s.depth - 1, keyAllowed := false }

def flowEntry (s : Scanner) : Except Defect Scanner := do
  let s ← s.dropCandidate
  return { s.mark .flowEntry with keyAllowed := true }

/-- A block opens where a mark stands that only blocks have; it needs a place of its own. -/
def openAt (t : Token) (s : Scanner) : Except Defect Scanner :=
  if s.inFlow then .ok s
  else if !s.keyAllowed then malformed
  else .ok (s.openBlock s.cursor.column (push t))

def blockEntry (s : Scanner) : Except Defect Scanner := do
  let s ← s.openAt .blockSequence
  let s ← s.dropCandidate
  return { s.mark .blockEntry with keyAllowed := true }

def key (s : Scanner) : Except Defect Scanner := do
  let s ← s.openAt .blockMapping
  let s ← s.dropCandidate
  return { s.mark .key with keyAllowed := !s.inFlow }

/-- The mark of a value. It makes a key of what the candidate of its depth stands on. -/
def value (s : Scanner) : Except Defect Scanner := do
  match Keyed.get? s.depth s.candidates with
  | some c =>
    let s := { s with candidates := s.candidates.filter (·.1 ≠ s.depth) }
    let s := s.insertAt c.position .key
    let s := if s.inFlow then s else s.openBlock c.column (insertAt c.position .blockMapping)
    return { s.mark .value with keyAllowed := false }
  | none =>
    let s ← s.openAt .blockMapping
    return { s.mark .value with keyAllowed := !s.inFlow }

/-- Something that may be a key. -/
def item (r : Scan Token) (s : Scanner) : Except Defect Scanner := do
  let s ← s.addCandidate
  let (t, s) ← s.scan r
  return { s.push t with keyAllowed := false }

/-- A mark that ends all blocks. -/
def boundary (r : Scan Token) (s : Scanner) : Except Defect Scanner := do
  let s ← s.closeAll.dropCandidate
  let (t, s) ← s.scan r
  return { s.push t with keyAllowed := false }

def blockScalar (fold : Bool) (s : Scanner) : Except Defect Scanner := do
  let s ← s.dropCandidate
  let (t, s) ← s.scan (block fold s.least)
  return { s.push (.scalar t false) with keyAllowed := true }

/-- A plain text. Behind the end of a line a key may begin. -/
def plainScalar (s : Scanner) : Except Defect Scanner := do
  let s ← s.addCandidate
  let ((t, crossed), s) ← s.scan (plain s.inFlow s.least)
  return { s.push (.scalar t true) with keyAllowed := crossed }

/-- Takes blanks and comments. Outside brackets a key may begin on each new line. -/
def skipBlanks : Nat → Scanner → Except Defect Scanner
  | 0, s => return s
  | fuel + 1, s => do
    let (ending, s) ← s.scan do
      Scan.skip ' '
      Scan.comment
      Scan.lineBreak
    if ending.isEmpty then return s
    skipBlanks fuel { s with keyAllowed := s.keyAllowed || !s.inFlow }

/-- May a plain text begin here? -/
def beginsPlain (flow : Bool) : Text → Bool
  | [] => false
  | c :: t =>
    (!isWide (some c) && !"-?:,[]\x7b\x7d#&*!|>'\"%@`".toList.contains c) ||
      (!isWide t.head? && (c = '-' || (!flow && (c = '?' || c = ':'))))

/-- Reads the token that begins here. -/
def token (c : Char) (t : Text) (s : Scanner) : Except Defect Scanner :=
  let first := s.cursor.column = 0
  if c = '%' && first then s.boundary (do return .directive (← directive))
  else if first && isDocumentMark (c :: t) then
    s.boundary do
      let _ ← Scan.advance 3
      return if c = '-' then .documentStart else .documentEnd
  else if c = '[' then s.flowStart .flowSequence
  else if c = '\x7b' then s.flowStart .flowMapping
  else if c = ']' then s.flowEnd .flowSequenceEnd
  else if c = '\x7d' then s.flowEnd .flowMappingEnd
  else if c = ',' then s.flowEntry
  else if c = '-' && isWide t.head? then s.blockEntry
  else if c = '?' && (s.inFlow || isWide t.head?) then s.key
  else if c = ':' && (s.inFlow || isWide t.head?) then s.value
  else if c = '*' then s.item (do return .alias (← anchorName))
  else if c = '&' then s.item (do return .anchor (← anchorName))
  else if c = '!' then s.item tag
  else if c = '|' && !s.inFlow then s.blockScalar false
  else if c = '>' && !s.inFlow then s.blockScalar true
  else if c = '\'' then s.item (do return .scalar (← quoted false) false)
  else if c = '"' then s.item (do return .scalar (← quoted true) false)
  else if beginsPlain s.inFlow (c :: t) then s.plainScalar
  else malformed

/-- Reads all tokens. Each takes a character at least, so the length of the text bounds their number. -/
def run : Nat → Scanner → Except Defect Scanner
  | 0, s => return s
  | fuel + 1, s => do
    let s ← s.skipBlanks (s.cursor.rest.length + 1)
    let s ← s.dropStale
    let s := s.closeBlocks
    match s.cursor.rest with
    | [] => s.closeAll.dropCandidate
    | c :: t => run fuel (← s.token c t)

end Scanner

/-- The characters that a text may hold. -/
def isAllowed (c : Char) : Bool :=
  let n := c.toNat
  n = 9 || n = 10 || n = 13 || (0x20 ≤ n && n ≤ 0x7E) || n = 0x85 || (0xA0 ≤ n && n ≤ 0xFFFD) || 0x10000 ≤ n

/-- The tokens of a text. A mark of byte order at its beginning is none of them. -/
def Token.ofText (t : Text) : Except Defect (List Token) := do
  if !t.all isAllowed then .error .malformed
  else
    let start : Cursor := { rest := t }
    let s ← Scanner.run (t.length + 1)
      { cursor := if t.head? = some '\uFEFF' then start.next else start }
    return s.tokens.reverse

end CodeManifest.Yaml
