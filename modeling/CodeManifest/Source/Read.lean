import CodeManifest.Source.Node
import CodeManifest.Text.Blank

namespace CodeManifest.Source

/-- A place in a source text. -/
structure Cursor where
  rest : Text
  /-- how many characters are left -/
  left : Nat
  /-- how many were left right behind the last token -/
  ended : Nat
  line : Nat := 1
  /-- the line on which the last token ended -/
  endedLine : Nat := 1
  /-- may the end of a line stand for a semicolon right behind the last token? -/
  implied : Bool := false
  /-- does a line end between the last token and this place? -/
  newline : Bool := false
  /-- the comments between the last token and this place -/
  comments : List Node := []
  /-- was anything met so far that does not fit? -/
  damaged : Bool := false

namespace Cursor

/-- The place so many characters further on. -/
def drop : Nat → Cursor → Cursor
  | 0, c => c
  | n + 1, c =>
    match c.rest with
    | [] => c
    | x :: r =>
      drop n { c with
        rest := r, left := c.left - 1
        line := if x = '\n' then c.line + 1 else c.line
        newline := c.newline || x = '\n' || x = '\r' }

/-- Beyond what texts count as blank, marks of byte order and invisible joiners stand between tokens. -/
def isGap (c : Char) : Bool := Text.isBlank c || c = '\uFEFF' || c = '\u2060' || c = '\u200B'

/-- The length of a comment between slash and star, up to its end. -/
def blockLength (n : Nat) : Text → Option Nat
  | '*' :: '/' :: _ => some (n + 2)
  | _ :: t => blockLength (n + 1) t
  | [] => none

def endsLine (c : Char) : Bool := c = '\n' || c = '\r' || c = '\u2028' || c = '\u2029'

/-- The length of the comment at the front of a text, if there is one. -/
def commentLength? : Text → Option Nat
  | '/' :: '/' :: t => some (2 + (t.takeWhile (! endsLine ·)).length)
  | '/' :: '*' :: t => (blockLength 0 t).map (2 + ·)
  | _ => none

/-- The place behind all blanks and comments. `fuel` bounds their number. -/
def settleFor : Nat → Cursor → Cursor
  | 0, c => c
  | fuel + 1, c =>
    match c.rest with
    | [] => c
    | x :: _ =>
      if isGap x then settleFor fuel (c.drop 1)
      else match commentLength? c.rest with
        | some n =>
          let comment : Node := { kind := .comment, text := c.rest.take n, line := c.line }
          settleFor fuel { c.drop n with comments := c.comments ++ [comment] }
        | none => c

def settle (c : Cursor) : Cursor := settleFor (c.left + 1) c

/-- The place behind a token of so many characters, with the blanks and comments that follow it. -/
def token (n : Nat) (c : Cursor) : Cursor :=
  let d := c.drop n
  settle { d with
    ended := d.left, endedLine := d.line, implied := false, newline := false, comments := [] }

/-- Before these the end of a line stands for nothing. -/
def isJoining (c : Char) : Bool := "`,.;*%><=?^|&/:".toList.contains c

/-- The comments from the first on that begins on a line of its own; `line` is where the text in
front of them ends. -/
def commentsBelow (line : Nat) : List Node → List Node
  | [] => []
  | n :: ns => if n.line = line then commentsBelow (line + n.text.count '\n') ns else n :: ns

/-- The place with the comments that do not belong to what ended in front of it. Comments on the same
line do where the end of that line stands for a semicolon. -/
def dropTrailing (c : Cursor) : Cursor :=
  let below := commentsBelow c.endedLine c.comments
  let trailing := c.comments.take (c.comments.length - below.length)
  let lastLine := match trailing.getLast? with
    | some n => n.line + n.text.count '\n'
    | none => c.endedLine
  if c.implied && lastLine < c.line && !c.rest.head?.any isJoining then { c with comments := below }
  else c

def ofText (t : Text) : Cursor := settle { rest := t, left := t.length, ended := t.length }

end Cursor

abbrev Reader := StateT Cursor Option

namespace Reader

variable {α β : Type}

def fail : Reader α := fun _ => none

/-- Fails unless the condition holds. -/
def require (b : Bool) : Reader Unit := if b then pure () else fail

/-- What was read does not fit, but reading goes on. -/
def damage : Reader Unit := modify ({ · with damaged := true })

/-- What the reader yields, if it does not fail. -/
def optionally (r : Reader α) : Reader (Option α) := fun c =>
  match r c with
  | some (a, d) => some (some a, d)
  | none => some (none, c)

/-- Does the reader not fail? Only then does it take anything. -/
def succeeds (r : Reader α) : Reader Bool := do return (← optionally r).isSome

/-- Would the reader not fail? It takes nothing. -/
def ahead (r : Reader α) : Reader Bool := fun c => some ((r c).isSome, c)

def manyFor (item : Reader α) : Nat → Reader (List α)
  | 0 => pure []
  | n + 1 => do
    match ← optionally item with
    | none => pure []
    | some a => return a :: (← manyFor item n)

/-- Items one after the other until one fails. -/
def many (item : Reader α) : Reader (List α) := do manyFor item (← get).left

def growFor (step : α → Reader α) : Nat → α → Reader α
  | 0, a => pure a
  | n + 1, a => do
    match ← optionally (step a) with
    | none => pure a
    | some a => growFor step n a

/-- A value that each further step takes up into a larger one. -/
def grow (step : α → Reader α) (a : α) : Reader α := do growFor step (← get).left a

/-- Items with commas between them; a comma may also stand behind the last. -/
def commaSeparated (comma : Reader Unit) (item : Reader α) : Reader (List α) := do
  match ← optionally item with
  | none => return []
  | some a =>
    let as ← many (do comma; item)
    let _ ← optionally comma
    return a :: as

def atEnd : Reader Bool := do return (← get).rest.isEmpty

/-- Does the text go on with `t`? -/
def sees (t : Text) : Reader Bool := do return t.isPrefixOf (← get).rest

/-- Takes the mark `t` and leaves what follows as it is, blanks and all. -/
def rawMark (t : Text) : Reader Unit := do
  require (← sees t)
  modify (Cursor.drop t.length)

/-- The text right here ends a token. -/
def endToken : Reader Unit := modify (Cursor.token 0)

/-- Takes the mark `t`. -/
def mark (t : Text) : Reader Unit := do
  require (← sees t)
  modify (Cursor.token t.length)

/-- Takes the mark `t`, unless the character behind it makes it another mark. -/
def markNotBefore (t : Text) (p : Char → Bool) : Reader Unit := do
  require (← sees t)
  require (!(((← get).rest.drop t.length).head?.any p))
  modify (Cursor.token t.length)

/-- Takes a token whose length `f` tells, and yields its text. -/
def measured (f : Text → Option Nat) : Reader Text := do
  let c ← get
  match f c.rest with
  | some (n + 1) =>
    set (c.token (n + 1))
    return c.rest.take (n + 1)
  | _ => fail

/-- What a reader has made out of the text it took: a kind, and children. -/
structure Shape where
  kind : Kind
  children : List Node := []

/-- The node of what a reader takes, with its text. -/
def spanned (label : Option Label) (r : Reader Shape) : Reader Node := do
  let c ← get
  let s ← r
  let d ← get
  return {
    kind := s.kind, label, text := c.rest.take (c.left - d.ended), line := c.line
    damaged := d.damaged && !c.damaged, children := s.children }

/-- The node of what a reader takes, where its text does not count. -/
def placed (label : Option Label) (r : Reader Shape) : Reader Node := do
  let c ← get
  let s ← r
  let d ← get
  return {
    kind := s.kind, label, line := c.line, damaged := d.damaged && !c.damaged
    children := s.children }

/-- The node of a token. -/
def tokenNode (r : Reader Unit) : Reader Node := spanned none do
  r
  return { kind := .token }

/-- The comments in front of this place. -/
def comments : Reader (List Node) := do return (← get).comments

/-- A semicolon may be implied right here. -/
def imply : Reader Unit := modify ({ · with implied := true })

/-- The comments in front of this place that stand by themselves. -/
def ownComments : Reader (List Node) := do return (← get).dropTrailing.comments

end Reader

end CodeManifest.Source
