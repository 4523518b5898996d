import CodeManifest.Sql.Token

namespace CodeManifest.Sql

abbrev Reader := StateT (List Token) Option

namespace Reader

variable {α β : Type}

/-- The grammar rejects the text. -/
def reject : Reader α := fun _ => none

def peek? : Reader (Option Token) := fun ts => some (ts.head?, ts)

/-- The token after the next one. -/
def second? : Reader (Option Token) := fun ts => some (ts.tail.head?, ts)

def next? : Reader (Option Token) := fun ts => some (ts.head?, ts.tail)

def skip : Reader Unit := fun ts => some ((), ts.tail)

def atEnd : Reader Bool := fun ts => some (ts.isEmpty, ts)

/-- Is the next token one that `p` accepts? -/
def sees (p : Token → Bool) : Reader Bool := fun ts => some (ts.head?.any p, ts)

/-- The next token, if `p` accepts it. -/
def take? (p : Token → Bool) : Reader (Option Token) := fun ts =>
  match ts with
  | [] => some (none, [])
  | t :: r => if p t then some (some t, r) else some (none, ts)

def takes (p : Token → Bool) : Reader Bool := fun ts =>
  match ts with
  | [] => some (false, [])
  | t :: r => if p t then some (true, r) else some (false, ts)

end Reader

namespace Token

def isMark (m : String) (t : Token) : Bool := t.kind = .mark m

def isKeyword (k : String) (t : Token) : Bool := t.kind = .keyword k

/-- Is the token's text `w`, up to letter case? A string never is. -/
def spells (w : String) (t : Token) : Bool := t.kind ≠ .string && Text.asciiUpper t.text = w.toList

/-- Does the token spell one of the words? -/
def spellsAny (ws : List String) (t : Token) : Bool := ws.any t.spells

end Token

namespace Reader

variable {α β : Type}

def mark (m : String) : Reader Bool := takes (Token.isMark m)

def keyword (k : String) : Reader Bool := takes (Token.isKeyword k)

def word (w : String) : Reader Bool := takes (Token.spells w)

def seesMark (m : String) : Reader Bool := sees (Token.isMark m)

def seesKeyword (k : String) : Reader Bool := sees (Token.isKeyword k)

/-- The words one after the other, or none of them. -/
def words (ws : List String) : Reader Bool := fun ts =>
  if ws.length ≤ ts.length && (ws.zip ts).all fun (w, t) => t.spells w then
    some (true, ts.drop ws.length)
  else some (false, ts)

/-- Two keywords one after the other, or none of them. -/
def keywords (k l : String) : Reader Bool := fun ts =>
  match ts with
  | t :: u :: r => if t.isKeyword k && u.isKeyword l then some (true, r) else some (false, ts)
  | _ => some (false, ts)

/-- The next word in capitals, if it is one of `ws`. -/
def wordOf? (ws : List String) : Reader (Option String) := fun ts =>
  match ts with
  | [] => some (none, [])
  | t :: r =>
    match ws.find? t.spells with
    | some w => some (some w, r)
    | none => some (none, ts)

/-- A reader that is tried only under a condition. -/
def guarded (c : Bool) (r : Reader Bool) : Reader Bool := if c then r else pure false

/-- The grammar needs what the reader looks for. -/
def need (r : Reader (Option α)) : Reader α := do
  match ← r with
  | some a => pure a
  | none => reject

/-- The grammar needs the reader to have found its token. -/
def must (r : Reader Bool) : Reader Unit := do
  if ← r then pure () else reject

/-- What the reader yields; where it yields nothing it takes nothing either. -/
def attempt (r : Reader (Option α)) : Reader (Option α) := fun ts =>
  match r ts with
  | some (none, _) => some (none, ts)
  | found => found

/-- Nothing where the reader fails. -/
def hope (r : Reader (Option α)) : Reader (Option α) := fun ts =>
  match r ts with
  | none => some (none, ts)
  | some (none, _) => some (none, ts)
  | found => found

/-- The first of two readers that finds something. -/
def either (r s : Reader (Option α)) : Reader (Option α) := do
  match ← r with
  | some a => pure (some a)
  | none => s

def csvAfter (item : Reader (Option α)) : Nat → Reader (List α)
  | 0 => pure []
  | n + 1 => do
    if ← mark "," then
      let a ← item
      let as ← csvAfter item n
      pure (a.toList ++ as)
    else pure []

/-- Items between commas. An item may be missing. -/
def csv (item : Reader (Option α)) : Reader (List α) := do
  let a ← item
  let as ← csvAfter item (← get).length
  pure (a.toList ++ as)

/-- A reader between parentheses. -/
def wrapped (r : Reader α) : Reader α := do
  must (mark "(")
  let a ← r
  must (mark ")")
  pure a

/-- Items between commas in parentheses. -/
def wrappedCsv (item : Reader (Option α)) : Reader (List α) := wrapped (csv item)

def manyFor (item : Reader (Option α)) : Nat → Reader (List α)
  | 0 => pure []
  | n + 1 => do
    match ← item with
    | none => pure []
    | some a => return a :: (← manyFor item n)

/-- Items one after the other until there is none. -/
def many (item : Reader (Option α)) : Reader (List α) := do
  manyFor item (← get).length

def growFor (step : α → Reader (Option α)) : Nat → α → Reader α
  | 0, a => pure a
  | n + 1, a => do
    match ← step a with
    | none => pure a
    | some a => growFor step n a

/-- A value that each further step takes up into a larger one. -/
def grow (step : α → Reader (Option α)) (a : α) : Reader α := do
  growFor step (← get).length a

/-- The result of a reader together with the source of all it has taken. -/
def withSource (r : Reader α) : Reader (α × Text) := fun ts =>
  match r ts with
  | none => none
  | some (a, rest) =>
    let taken := ts.take (ts.length - rest.length)
    match taken.head?, taken.getLast? with
    | some first, some last => some ((a, Token.source first last), rest)
    | _, _ => some ((a, []), rest)

/-- What stands before the parenthesis that closes the one already taken, with all inner ones. -/
def toClosing : Reader Unit := fun ts => (close 0 ts).map ((), ·)
where
  close : Nat → List Token → Option (List Token)
  | _, [] => none
  | depth, t :: ts =>
    if t.isMark "(" then close (depth + 1) ts
    else if t.isMark ")" then
      match depth with
      | 0 => some (t :: ts)
      | depth + 1 => close depth ts
    else close depth ts

end Reader

end CodeManifest.Sql
