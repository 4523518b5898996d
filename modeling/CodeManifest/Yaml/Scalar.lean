import CodeManifest.Json.Read
import CodeManifest.Yaml.Cursor

namespace CodeManifest.Yaml

open Scan

/-- The line ends between two lines that are joined: a line feed alone becomes a space. -/
def folded (first : Text) (more : List Text) : Text :=
  if first ≠ ['\n'] then first ++ more.flatten
  else if more.isEmpty then [' ']
  else more.flatten

/-- Does a plain text end in front of the rest `t`? Inside brackets more characters end it. -/
def endsPlain (flow : Bool) : Text → Bool
  | [] => true
  | c :: t =>
    isWide (some c) ||
      (c = ':' && (isWide t.head? || (flow && t.head?.any ",[]{}".toList.contains))) ||
      (flow && ",?[]{}".toList.contains c)

/-- The length of the part of a plain text that holds no space. -/
def plainLength (flow : Bool) : Text → Nat
  | [] => 0
  | c :: t => if endsPlain flow (c :: t) then 0 else plainLength flow t + 1

/-- The ends of empty lines with the spaces between them, unless a document ends there. -/
def plainBreaks : Nat → List Text → Scan (Option (List Text))
  | 0, breaks => return some breaks
  | fuel + 1, breaks => do
    let c ← get
    match c.rest.head? with
    | some ' ' => let _ ← advance 1; plainBreaks fuel breaks
    | some x =>
      if endsLine x then
        let b ← lineBreak
        if isDocumentMark (← get).rest then return none
        plainBreaks fuel (breaks ++ [b])
      else return some breaks
    | none => return some breaks

/-- What stands between two parts of a plain text, and whether a line ends there. Nothing if the text
cannot go on. -/
def plainSpaces : Scan (Option Text × Bool) := do
  let spaces ← takeWhile (· = ' ')
  if (← peek).any endsLine then
    let first ← lineBreak
    if isDocumentMark (← get).rest then return (none, true)
    match ← plainBreaks ((← get).rest.length + 1) [] with
    | none => return (none, true)
    | some more => return (some (folded first more), true)
  else return (if spaces.isEmpty then none else some spaces, false)

/-- A plain text from its part `done` on, and whether a line ends behind its last part. -/
def plainFor (flow : Bool) (least : Nat) : Nat → Text → Text → Bool → Scan (Text × Bool)
  | 0, done, _, crossed => return (done, crossed)
  | fuel + 1, done, spaces, crossed => do
    let c ← get
    let n := plainLength flow c.rest
    if c.rest.head? = some '#' || n = 0 then return (done, crossed)
    let done := done ++ spaces ++ (← advance n)
    let (between, crossed) ← plainSpaces
    let d ← get
    match between with
    | none => return (done, crossed)
    | some between =>
      if d.rest.head? = some '#' || (!flow && d.column < least) then return (done, crossed)
      plainFor flow least fuel done between crossed

/-- A plain text. Outside brackets its lines stand in column `least` or further right. -/
def plain (flow : Bool) (least : Nat) : Scan (Text × Bool) := do
  plainFor flow least ((← get).rest.length + 1) [] [] false

/-- What a backslash with a character behind it stands for. -/
def escapes : List (Char × Char) := [
  ('0', '\x00'), ('a', '\x07'), ('b', '\x08'), ('t', '\t'), ('\t', '\t'), ('n', '\n'), ('v', '\x0B'),
  ('f', '\x0C'), ('r', '\r'), ('e', '\x1B'), (' ', ' '), ('"', '"'), ('\\', '\\'), ('/', '/'),
  ('N', '\u0085'), ('_', '\u00A0'), ('L', '\u2028'), ('P', '\u2029')]

/-- The letters behind which the number of a character is written, with its digits. -/
def numbered : List (Char × Nat) := [('x', 2), ('u', 4), ('U', 8)]

/-- The number that digits of base sixteen stand for. -/
def hexadecimal? (t : Text) : Option Nat :=
  t.foldlM (fun n c => (Json.hexDigit? c).map (16 * n + ·)) 0

/-- The character of a number that is written out. Half a surrogate pair is no character; it counts as a
null character, which stands in no path either. -/
def numberedChar (digits : Nat) : Scan Text := do
  let ds ← advance digits
  match hexadecimal? ds with
  | some n =>
    require (ds.length = digits)
    if n > 0x10FFFF then fun _ => .error .outOfRange
    else return [if Nat.isValidChar n then Char.ofNat n else '\x00']
  | none => malformed

/-- The ends of empty lines in a quoted text. -/
def quotedBreaks : Nat → List Text → Scan (List Text)
  | 0, breaks => return breaks
  | fuel + 1, breaks => do
    require (!isDocumentMark (← get).rest)
    let _ ← takeWhile fun c => c = ' ' || c = '\t'
    if (← peek).any endsLine then
      let b ← lineBreak
      quotedBreaks fuel (breaks ++ [b])
    else return breaks

/-- The ends of all empty lines that follow here. -/
def allBreaks : Scan (List Text) := do quotedBreaks ((← get).rest.length + 1) []

/-- What a backslash stands for. One at the end of a line joins it to the next. -/
def escape : Scan Text := do
  let _ ← advance 1
  match ← peek with
  | none => malformed
  | some c =>
    match escapes.lookup c, numbered.lookup c with
    | some x, _ => let _ ← advance 1; return [x]
    | none, some digits => let _ ← advance 1; numberedChar digits
    | none, none =>
      if endsLine c then
        let _ ← lineBreak
        return (← allBreaks).flatten
      else malformed

/-- The spaces and line ends inside a quoted text. -/
def quotedSpaces : Scan Text := do
  let spaces ← takeWhile fun c => c = ' ' || c = '\t'
  match ← peek with
  | none => malformed
  | some c =>
    if endsLine c then
      let first ← lineBreak
      return folded first (← allBreaks)
    else return spaces

/-- A quoted text from its part `done` on. Between double quotes a backslash has a meaning, between
single ones two of them stand for one. -/
def quotedFor (double : Bool) : Nat → Text → Scan Text
  | 0, _ => malformed
  | fuel + 1, done => do
    match (← get).rest with
    | [] => malformed
    | c :: t =>
      if c = (if double then '"' else '\'') then
        if !double && t.head? = some '\'' then
          let _ ← advance 2
          quotedFor double fuel (done ++ ['\''])
        else
          let _ ← advance 1
          return done
      else if double && c = '\\' then quotedFor double fuel (done ++ (← escape))
      else if isWide (some c) then quotedFor double fuel (done ++ (← quotedSpaces))
      else quotedFor double fuel (done ++ (← advance 1))

def quoted (double : Bool) : Scan Text := do
  let _ ← advance 1
  quotedFor double ((← get).rest.length + 1) []

/-- What becomes of the line ends at the end of a block. -/
inductive Chomping where
  | strip
  | clip
  | keep
  deriving DecidableEq, Repr

def chomping : Scan (Option Chomping) := do
  match ← peek with
  | some '+' => let _ ← advance 1; return some .keep
  | some '-' => let _ ← advance 1; return some .strip
  | _ => return none

/-- How much further to the right a block stands, if its head tells. -/
def increment : Scan (Option Nat) := do
  match ← peek with
  | some c =>
    if Text.isDigit c then
      require (c ≠ '0')
      let _ ← advance 1
      return some (c.toNat - '0'.toNat)
    else return none
  | none => return none

/-- The head of a block: both indicators in any order, and nothing else on its line. -/
def blockHead : Scan (Chomping × Option Nat) := do
  let first ← chomping
  let i ← increment
  let c ← match first with
    | some c => pure (some c)
    | none => if i.isSome then chomping else pure none
  require (isGap (← peek))
  restOfLine
  return (c.getD .clip, i)

/-- The empty lines in front of a block whose column is not known, and the furthest column reached. -/
def blockStart : Nat → List Text → Nat → Scan (List Text × Nat)
  | 0, breaks, widest => return (breaks, widest)
  | fuel + 1, breaks, widest => do
    match ← peek with
    | some ' ' =>
      let _ ← advance 1
      blockStart fuel breaks (max widest (← get).column)
    | some c =>
      if endsLine c then blockStart fuel (breaks ++ [← lineBreak]) widest else return (breaks, widest)
    | none => return (breaks, widest)

/-- Takes spaces up to a column. -/
def indentTo (column : Nat) : Scan Unit := do
  let c ← get
  let _ ← advance (min (column - c.column) (c.rest.takeWhile (· = ' ')).length)

/-- The empty lines in front of the next line of a block in a column. -/
def blockBreaks (column : Nat) : Nat → List Text → Scan (List Text)
  | 0, breaks => return breaks
  | fuel + 1, breaks => do
    indentTo column
    if (← peek).any endsLine then blockBreaks column fuel (breaks ++ [← lineBreak])
    else return breaks

/-- Is the place at a line of a block in a column? -/
def atLine (column : Nat) : Scan Bool := do
  let c ← get
  return c.column = column && !c.rest.isEmpty

def isIndented (c : Option Char) : Bool := c = some ' ' || c = some '\t'

/-- The lines of a block, with the last line end and the empty lines behind them. Two lines are joined
where lines fold and neither is indented further. -/
def blockLines (fold : Bool) (column : Nat) : Nat → Text → List Text → Scan (Text × Text × List Text)
  | 0, done, breaks => return (done, [], breaks)
  | fuel + 1, done, breaks => do
    if !(← atLine column) then return (done, [], breaks)
    let indented := isIndented (← peek)
    let line ← takeWhile (! endsLine ·)
    let done := done ++ breaks.flatten ++ line
    let ending ← lineBreak
    let breaks ← blockBreaks column ((← get).rest.length + 1) []
    if ← atLine column then
      if fold && ending = ['\n'] && !indented && !isIndented (← peek) then
        blockLines fold column fuel (done ++ if breaks.isEmpty then [' '] else []) breaks
      else blockLines fold column fuel (done ++ ending) breaks
    else return (done, ending, breaks)

/-- A block below something in column `parent`, which is less than `least`. -/
def block (fold : Bool) (least : Nat) : Scan Text := do
  let _ ← advance 1
  let (chomp, i) ← blockHead
  let least := max least 1
  let fuel := (← get).rest.length + 1
  let (breaks, column) ← match i with
    | some n =>
      let column := least + n - 1
      pure (← blockBreaks column fuel [], column)
    | none =>
      let (breaks, widest) ← blockStart fuel [] 0
      pure (breaks, max least widest)
  let (done, ending, breaks) ← blockLines fold column fuel [] breaks
  return match chomp with
    | .strip => done
    | .clip => done ++ ending
    | .keep => done ++ ending ++ breaks.flatten

end CodeManifest.Yaml
