import CodeManifest.Source.Read

namespace CodeManifest.Source

namespace Token

/-- The marks that are never part of a name. -/
def marks : Text := ":;`\"'@#.,|^&<=>+-*/\\%?!~()[]\x7b\x7d"

/-- May a name begin with the character? -/
def isNameStart (c : Char) : Bool :=
  !(c.toNat < 0x20 || Cursor.isGap c || Text.isDigit c || marks.contains c)

def isNamePart (c : Char) : Bool := isNameStart c || Text.isDigit c

/-- The length of the rest of a name. A character may be written as an escape. -/
def namePartLength (n : Nat) : Text → Nat
  | '\\' :: 'u' :: '\x7b' :: t => namePartLength (n + 3) t
  | '\\' :: 'u' :: t => namePartLength (n + 2) t
  | '\x7d' :: _ => n
  | c :: t => if isNamePart c then namePartLength (n + 1) t else n
  | [] => n

/-- The length of the name at the front of a text. -/
def nameLength? : Text → Option Nat
  | '\\' :: 'u' :: t => some (namePartLength 2 t)
  | c :: t => if isNameStart c then some (namePartLength 1 t) else none
  | [] => none

/-- The words that are no names. -/
def reserved : List Text := List.map String.toList [
  "break", "case", "catch", "class", "const", "continue", "debugger", "default", "delete", "do",
  "else", "enum", "export", "extends", "false", "finally", "for", "function", "if", "import", "in",
  "instanceof", "new", "null", "return", "super", "switch", "this", "throw", "true", "try", "typeof",
  "var", "void", "while", "with"]

/-- The length of an exponent with its mark. -/
def exponentLength (t : Text) : Nat :=
  match t with
  | e :: s :: d :: r =>
    if e = 'e' || e = 'E' then
      if Text.isDigit s then 2 + (digits (d :: r)).length
      else if (s = '+' || s = '-') && Text.isDigit d then 3 + (digits r).length
      else 0
    else 0
  | [e, d] => if (e = 'e' || e = 'E') && Text.isDigit d then 2 else 0
  | _ => 0
where
  digits (t : Text) : Text := t.takeWhile fun c => Text.isDigit c || c = '_'

/-- The length of the number at the front of a text. -/
def numberLength? (t : Text) : Option Nat :=
  match t with
  | '0' :: x :: r =>
    if "xXoObB".toList.contains x then some (2 + (r.takeWhile isNamePart).length) else decimal t
  | '.' :: d :: _ => if Text.isDigit d then decimal t else none
  | c :: _ => if Text.isDigit c then decimal t else none
  | [] => none
where
  digits (t : Text) : Text := t.takeWhile fun c => Text.isDigit c || c = '_'
  decimal (t : Text) : Option Nat :=
    let whole := (digits t).length
    let r := t.drop whole
    let fraction := match r with
      | '.' :: f => 1 + (digits f).length
      | _ => 0
    let r := r.drop fraction
    let exponent := exponentLength r
    let r := r.drop exponent
    some (whole + fraction + exponent + if r.head? = some 'n' then 1 else 0)

/-- The length of the rest of a string up to its mark `q`. No line ends in it, unless behind a
backslash. -/
def stringLength (q : Char) (n : Nat) : Text → Option Nat
  | [] => none
  | ['\\'] => none
  | '\\' :: _ :: t => stringLength q (n + 2) t
  | c :: t => if c = q then some (n + 1) else if c = '\n' then none else stringLength q (n + 1) t

def stringLength? : Text → Option Nat
  | c :: t => if c = '"' || c = '\'' then stringLength c 1 t else none
  | [] => none

/-- The length of the rest of a pattern up to its closing slash, which does not count in brackets. -/
def patternLength (inClass : Bool) (n : Nat) : Text → Option Nat
  | [] => none
  | ['\\'] => none
  | '\\' :: c :: t => if Cursor.endsLine c then none else patternLength inClass (n + 2) t
  | c :: t =>
    if Cursor.endsLine c then none
    else if c = '/' && !inClass then some (n + 1)
    else patternLength (if c = '[' then true else if c = ']' then false else inClass) (n + 1) t

/-- The length of the pattern at the front of a text, with its flags. -/
def patternLength? : Text → Option Nat
  | '/' :: t => (patternLength false 1 t).map fun n => n + ((t.drop (n - 1)).takeWhile isNamePart).length
  | _ => none

/-- What a place in the text is inside of. -/
inductive Inside where
  | bracket (closing : Char)
  | string (mark : Char)
  | template
  | lineComment
  | blockComment
  | pattern (inClass : Bool)

/-- The closing bracket to an opening one. -/
def closing? : Char → Option Char
  | '(' => some ')'
  | '[' => some ']'
  | '\x7b' => some '\x7d'
  | _ => none

def isClosing (c : Char) : Bool := c = ')' || c = ']' || c = '\x7d'

/-- After these a slash begins a pattern, after all else it divides. -/
def beforePattern : Text := "(,=:[!&|?\x7b\x7d;+-*%~^<>"

/-- How far a text between brackets has been passed over. -/
structure Passage where
  /-- what this place is inside of, the innermost first -/
  inside : List Inside
  /-- the character in front that is no blank -/
  last : Char
  /-- was the next character already taken together with the one in front? -/
  skip : Bool := false

/-- Goes past the character `c`, which `next` follows. -/
def Passage.step (p : Passage) (c : Char) (next : Option Char) : Option Passage :=
  match p.inside with
  | [] => none
  | .bracket close :: outer =>
    if isClosing c then
      if c = close then some { inside := outer, last := c } else none
    else match closing? c with
    | some inner => some { inside := .bracket inner :: p.inside, last := c }
    | none =>
      if c = '"' || c = '\'' then some { p with inside := .string c :: p.inside }
      else if c = '`' then some { p with inside := .template :: p.inside }
      else if c = '/' && next = some '/' then
        some { p with inside := .lineComment :: p.inside, skip := true }
      else if c = '/' && next = some '*' then
        some { p with inside := .blockComment :: p.inside, skip := true }
      else if c = '/' && beforePattern.contains p.last then
        some { p with inside := .pattern false :: p.inside }
      else some { p with last := if Cursor.isGap c then p.last else c }
  | .string q :: outer =>
    if c = '\\' then some { p with skip := true }
    else if c = q then some { inside := outer, last := c }
    else if c = '\n' then none
    else some p
  | .template :: outer =>
    if c = '\\' then some { p with skip := true }
    else if c = '$' && next = some '\x7b' then
      some { inside := .bracket '\x7d' :: p.inside, last := '\x7b', skip := true }
    else if c = '`' then some { inside := outer, last := c }
    else some p
  | .lineComment :: outer => some (if Cursor.endsLine c then { p with inside := outer } else p)
  | .blockComment :: outer =>
    some (if c = '*' && next = some '/' then { p with inside := outer, skip := true } else p)
  | .pattern b :: outer =>
    if c = '\\' then some { p with skip := true }
    else if c = '/' && !b then some { inside := outer, last := ')' }
    else if c = '\n' then none
    else some { p with inside := .pattern (if c = '[' then true else if c = ']' then false else b) :: outer }

/-- The length of a text up to the bracket that closes the outermost one. -/
def closingLength (n : Nat) (p : Passage) : Text → Option Nat
  | [] => if p.inside.isEmpty then some n else none
  | c :: t =>
    if p.skip then closingLength (n + 1) { p with skip := false } t
    else if p.inside.isEmpty then some n
    else match p.step c t.head? with
    | some p => closingLength (n + 1) p t
    | none => none

/-- The length of a text between brackets, the brackets included. -/
def bracketsLength? : Text → Option Nat
  | [] => none
  | c :: t => (closing? c).bind fun close =>
    closingLength 1 { inside := [.bracket close], last := c } t

/-- The length of a template with all that is filled in. -/
def templateLength? : Text → Option Nat
  | '`' :: t => closingLength 1 { inside := [.template], last := '`' } t
  | _ => none

end Token

namespace Reader

/-- A name or a word. -/
def word : Reader Text := measured Token.nameLength?

/-- The word `w`. -/
def keyword (w : Text) : Reader Unit := do
  require ((← word) = w)

/-- Is the word `w` next? -/
def seesKeyword (w : Text) : Reader Bool := ahead (keyword w)

/-- A name that is no reserved word. -/
def name : Reader Text := do
  let w ← word
  require (!Token.reserved.contains w)
  return w

def string : Reader Text := measured Token.stringLength?

def number : Reader Text := measured Token.numberLength?

def pattern : Reader Text := measured Token.patternLength?

def template : Reader Text := measured Token.templateLength?

/-- A text between brackets as a whole, which begins with `start`. -/
def brackets (start : Text) : Reader Unit := do
  require (← sees start)
  let _ ← measured Token.bracketsLength?

/-- No line ends in front of this place. -/
def sameLine : Reader Unit := do require (!(← get).newline)

def comma : Reader Unit := mark ","

/-- The end of a member or a statement: a semicolon, or a place where none is needed. Elsewhere it is
missing. -/
def ending : Reader Unit := do
  if ← succeeds (mark ";") then return ()
  let c ← get
  if c.newline || c.rest.isEmpty || c.rest.head? = some '\x7d' then return ()
  damage

/-- The end of a statement. One that is implied belongs to the statement. -/
def semicolon : Reader Unit := do
  if ← succeeds (mark ";") then return ()
  ending
  imply

end Reader

end CodeManifest.Source
