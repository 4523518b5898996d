import CodeManifest.Sql.Keyword
import CodeManifest.Text.Blank
import CodeManifest.Text.Word

namespace CodeManifest.Sql

/-- A token with its own text, the source from its first character on, and the source after it. -/
structure Token where
  kind : Kind
  text : Text
  here : Text
  rest : Text

namespace Token

/-- How the inside of a quotation is read: which characters escape, and whether backslash
sequences stand for control characters. -/
structure Quoting where
  escapes : Text
  marks : Text
  backslash : Bool

/-- The control character a backslash sequence stands for. -/
def unescaped? : Char → Option Char
  | 'a' => some '\x07'
  | 'b' => some '\x08'
  | 'f' => some '\x0c'
  | 'n' => some '\n'
  | 'r' => some '\r'
  | 't' => some '\t'
  | 'v' => some '\x0b'
  | '\\' => some '\\'
  | _ => none

/-- The inside of a quotation up to its closing mark, and what follows that mark. -/
def readQuoted (q : Quoting) (close : Text) : Text → Option (Text × Text)
  | [] => none
  | [c] => if [c] = close then some ([], []) else none
  | c :: c' :: t =>
    let plain := (readQuoted q close (c' :: t)).map fun (s, r) => (c :: s, r)
    let control := if q.backslash && c = '\\' && q.escapes.contains c then unescaped? c' else none
    match control with
    | some x => (readQuoted q close t).map fun (s, r) => (x :: s, r)
    | none =>
      let bare := q.backslash && c = '\\' && !"0bnrtZ%_".toList.contains c'
      let atMark := [c'] = close
      if (q.escapes.contains c || bare) && (atMark || q.escapes.contains c' || bare) &&
          (!q.marks.contains c || c = c') then
        if t.isEmpty then none
        else (readQuoted q close t).map fun (s, r) =>
          (if atMark || bare then (c' :: s, r) else (c :: c' :: s, r))
      else match close.isPrefixOf? (c :: c' :: t) with
        | some r => some ([], r)
        | none => plain

/-- The rest after a comment that may hold further comments; `depth` of them are open. -/
def afterComment (nested : Bool) : Nat → Text → Option Text
  | _, [] => none
  | _, [_] => none
  | depth, c :: c' :: t =>
    if c = '*' && c' = '/' then
      if depth = 0 then some t else afterComment nested (depth - 1) t
    else if nested && c = '/' && c' = '*' then afterComment nested (depth + 1) t
    else afterComment nested depth (c' :: t)

/-- The rest after a keyword of several words, between which any blanks may stand. -/
def afterPhrase? (blank : Bool) : Text → Text → Option Text
  | [], t =>
    match t with
    | [] => some []
    | c :: _ => if Text.isBlank c || Keyword.singleMarks.contains c then some t else none
  | _ :: _, [] => none
  | p :: ps, c :: t =>
    if p = ' ' then
      if Text.isBlank c then afterPhrase? true (p :: ps) t
      else if blank then
        match ps with
        | [] => none
        | p' :: ps' => if c.toUpper = p' then afterPhrase? false ps' t else none
      else none
    else if c.toUpper = p then afterPhrase? false ps t else none

/-- The leading word, which a single mark ends unless the dialect lets it stand inside words. -/
def readWord (d : Dialect) (t : Text) : Text × Text :=
  let inside := fun c =>
    !Text.isBlank c && ((Keyword.wordMarks d).contains c || !Keyword.singleMarks.contains c)
  (t.takeWhile inside, t.dropWhile inside)

/-- The rest of a numeral. `point` and `exponent` tell what has been read of it. -/
def readNumeral (point : Bool) (exponent : Nat) : Text → Text × Text
  | [] => ([], [])
  | c :: t =>
    let more := fun (p : Text × Text) => (c :: p.1, p.2)
    if Text.isDigit c then more (readNumeral point exponent t)
    else if c = '.' && !point then more (readNumeral true exponent t)
    else if (c = '-' || c = '+') && exponent = 1 then more (readNumeral point 2 t)
    else if c.toUpper = 'E' && exponent = 0 then more (readNumeral point 1 t)
    else ([], c :: t)

/-- One step of reading: the kind and text of a token, or nothing for blanks and comments, and what
follows. -/
inductive Step where
  | skip (rest : Text)
  | token (kind : Kind) (text : Text) (rest : Text)
  | broken

/-- Does the dialect write binary numerals? -/
def readsBits (d : Dialect) : Bool := d = .mysql || d = .postgresql

/-- The quoting of strings. -/
def stringQuoting : Dialect → Quoting
  | .mysql => ⟨"'\"\\", "'\"", true⟩
  | _ => ⟨"'", "'\"", false⟩

def quotation (q : Quoting) (close : Text) (kind : Kind) (t : Text) : Step :=
  match readQuoted q close t with
  | some (s, r) => .token kind s r
  | none => .broken

/-- A quotation of hexadecimal or binary digits. -/
def digitQuotation (base : Nat) (kind : Kind) (t : Text) : Step :=
  match readQuoted ⟨"'", "'\"", false⟩ "'" t with
  | some (s, r) =>
    let ok := fun c => if base = 2 then c = '0' || c = '1' else c.isDigit || ('a' ≤ c.toLower && c.toLower ≤ 'f')
    if s.all ok then .token kind s r else .broken
  | none => .broken

/-- A text between dollar signs with a tag, closed by the same tag. -/
def dollarQuotation (t : Text) : Step :=
  let tag := t.takeWhile (· ≠ '$')
  match t.dropWhile (· ≠ '$') with
  | [] => .token (.mark "$") "$" t
  | _ :: body =>
    if tag.any Text.isBlank || (!tag.isEmpty && tag.all Text.isDigit) then .token (.mark "$") "$" t
    else quotation ⟨"", "", false⟩ ('$' :: tag ++ ['$']) .raw body

/-- A word or a keyword. After an `@` every word is a plain one. -/
def wordStep (d : Dialect) (afterAt : Bool) (t : Text) : Step :=
  match t with
  | [] => .broken
  | c :: rest =>
    let (w, r) := readWord d rest
    let w := c :: w
    .token (if afterAt then .word else Keyword.kind d w) w r

/-- A token that begins with a digit. -/
def numberStep (d : Dialect) (afterAt : Bool) (c : Char) (t : Text) : Step :=
  let based := fun (base : Nat) (kind : Kind) =>
    let (w, r) := readWord d (t.drop 1)
    let ok := fun c => if base = 2 then c = '0' || c = '1' else c.isDigit || ('a' ≤ c.toLower && c.toLower ≤ 'f')
    if !w.isEmpty && w.all ok then Step.token kind w r else .token .quoted (c :: t.take 1 ++ w) r
  match c, t.head?.map Char.toUpper with
  | '0', some 'X' => based 16 .hex
  | '0', some 'B' => if readsBits d then based 2 .bits else .token .number [c] t
  | _, _ =>
    let (n, r) := if afterAt then (t.takeWhile Text.isDigit, t.dropWhile Text.isDigit) else readNumeral false 0 t
    match r with
    | x :: _ =>
      if Text.isWord x && !Text.isDigit x && d = .mysql then
        let (w, r) := readWord d r
        .token .word (c :: n ++ w) r
      else .token .number (c :: n) r
    | [] => .token .number (c :: n) r

/-- The rest of a line. -/
def afterLine (t : Text) : Text := t.dropWhile fun c => c ≠ '\n' && c ≠ '\r'

/-- A mark, the longest that fits. -/
def markStep (d : Dialect) (t : Text) : Step :=
  match (Keyword.marks d).findSome? fun m => (m.toList.isPrefixOf? t).map (m, ·) with
  | some (m, r) => .token (.mark m) m.toList r
  | none =>
    match t with
    | [] => .broken
    | c :: r =>
      if c = '\'' || c = '`' || c = '"' then .token (.type "UNKNOWN") [c] r
      else .token (.mark (String.ofList [c])) [c] r

/-- A dash comment needs a blank after its dashes in MySQL. -/
def dashComment? (d : Dialect) : Text → Option Text
  | '-' :: '-' :: t =>
    match t with
    | [] => some []
    | c :: _ => if d = .mysql && !Text.isBlank c then none else some (afterLine t)
  | _ => none

/-- The kind, the closing mark and the rest of a quotation that begins here, if one does. -/
def opened? (d : Dialect) : Text → Option Step
  | '\'' :: t => some (quotation (stringQuoting d) "'" .string t)
  | 'N' :: '\'' :: t | 'n' :: '\'' :: t => some (quotation (stringQuoting d) "'" .national t)
  | 'X' :: '\'' :: t | 'x' :: '\'' :: t =>
    if d = .mssql then none else some (digitQuotation 16 .hex t)
  | 'B' :: '\'' :: t | 'b' :: '\'' :: t =>
    if readsBits d then some (digitQuotation 2 .bits t) else none
  | 'E' :: '\'' :: t | 'e' :: '\'' :: t =>
    if d = .postgresql then some (quotation ⟨"'\\", "'\"", false⟩ "'" .bytes t) else none
  | 'U' :: '&' :: '\'' :: t | 'u' :: '&' :: '\'' :: t =>
    if d = .postgresql then some (quotation (stringQuoting d) "'" .string t) else none
  | '"' :: t =>
    some (if d = .mysql then quotation (stringQuoting d) "\"" .string t
      else quotation ⟨"\"", "'\"", false⟩ "\"" .quoted t)
  | '`' :: t =>
    if d = .mysql || d = .sqlite then some (quotation ⟨"`", "'\"", false⟩ "`" .quoted t) else none
  | '[' :: t =>
    if d = .sqlite || d = .mssql then some (quotation ⟨"]", "'\"", false⟩ "]" .quoted t) else none
  | '$' :: t => if d = .postgresql then some (dollarQuotation t) else none
  | _ => none

/-- One step on a text that is not empty. -/
def step (d : Dialect) (afterAt : Bool) : Text → Step
  | [] => .broken
  | c :: t =>
    if Text.isBlank c then .skip t
    else if Text.isDigit c then numberStep d afterAt c t
    else match opened? d (c :: t) with
      | some s => s
      | none =>
        match dashComment? d (c :: t) with
        | some r => .skip r
        | none =>
          if c = '#' && d = .mysql then .skip (afterLine t)
          else if c = '/' && t.head? = some '*' then
            match afterComment (d = .postgresql || d = .mssql) 0 (t.drop 1) with
            | some r => .skip r
            | none => .broken
          else match (Keyword.phrases d).findSome? fun (p, k) =>
              (afterPhrase? false p (c :: t)).map (p, k, ·) with
            | some (p, k, r) => .token k p r
            | none =>
              if Keyword.singleMarks.contains c then markStep d (c :: t)
              else wordStep d afterAt (c :: t)

/-- The source from the first character of one token to the last of another. -/
def source (first last : Token) : Text := first.here.take (first.here.length - last.rest.length)

/-- The tokens of a text, each as it stands. -/
def read (d : Dialect) : Nat → Bool → Text → Option (List Token)
  | _, _, [] => some []
  | 0, _, _ => none
  | fuel + 1, afterAt, t =>
    match step d afterAt t with
    | .broken => none
    | .skip r => read d fuel afterAt r
    | .token k s r => (read d fuel (k = .mark "@") r).map (⟨k, s, t, r⟩ :: ·)

/-- The tokens from the next semicolon on. -/
def atSemicolon (ts : List Token) : List Token := ts.dropWhile (·.kind ≠ .mark ";")

/-- Behind a command that begins a statement, all that precedes the semicolon is one string. -/
def holdCommands (d : Dialect) : Nat → Bool → List Token → List Token
  | _, _, [] => []
  | 0, _, ts => ts
  | fuel + 1, atStart, t :: ts =>
    if Keyword.isCommand d t.kind && atStart && t.rest.head? ≠ some ';' then
      let after := atSemicolon ts
      let stop := (after.head?.map (·.here)).getD []
      let held := Text.trim (t.rest.take (t.rest.length - stop.length))
      let rest := holdCommands d fuel false after
      if held.isEmpty then t :: rest else t :: ⟨.string, held, t.rest, stop⟩ :: rest
    else
      t :: holdCommands d fuel (t.kind = .mark ";" || t.kind = .keyword "BEGIN") ts

/-- The tokens of a text, or nothing where a quotation or a comment is left open. -/
def scan (d : Dialect) (t : Text) : Option (List Token) :=
  (read d (t.length + 1) false t).map fun ts => holdCommands d ts.length true ts

end Token

end CodeManifest.Sql
