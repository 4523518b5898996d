import CodeManifest.Keyed
import CodeManifest.Value

namespace CodeManifest.Json

def isBlank (c : Char) : Bool := c = ' ' || c = '\t' || c = '\n' || c = '\r'

def skipBlanks (t : Text) : Text := t.dropWhile isBlank

def hexDigit? (c : Char) : Option Nat :=
  if '0' ≤ c && c ≤ '9' then some (c.toNat - '0'.toNat)
  else if 'a' ≤ c && c ≤ 'f' then some (c.toNat - 'a'.toNat + 10)
  else if 'A' ≤ c && c ≤ 'F' then some (c.toNat - 'A'.toNat + 10)
  else none

/-- A unit of four digits of base sixteen. -/
def hexUnit? : Text → Option (Nat × Text)
  | a :: b :: c :: d :: t => do
    let a ← hexDigit? a
    let b ← hexDigit? b
    let c ← hexDigit? c
    let d ← hexDigit? d
    return (((a * 16 + b) * 16 + c) * 16 + d, t)
  | _ => none

/-- What a backslash with one character behind it stands for. -/
def escaped? : Char → Option Char
  | '"' => some '"'
  | '\\' => some '\\'
  | '/' => some '/'
  | 'b' => some '\x08'
  | 'f' => some '\x0c'
  | 'n' => some '\n'
  | 'r' => some '\r'
  | 't' => some '\t'
  | _ => none

/-- The point of a unit, together with the unit behind it where the two make one character. -/
def unitPoint (n : Nat) (t : Text) : Text.Point × Text :=
  let half := Text.Point.half (Fin.ofNat 0x800 (n - 0xD800))
  if 0xD800 ≤ n && n < 0xDC00 then
    match (Text.dropStart? "\\u" t).bind hexUnit? with
    | some (m, r) =>
      if 0xDC00 ≤ m && m < 0xE000 then
        (.char (Char.ofNat (0x10000 + (n - 0xD800) * 0x400 + (m - 0xDC00))), r)
      else (half, t)
    | none => (half, t)
  else if 0xDC00 ≤ n && n < 0xE000 then (half, t)
  else (.char (Char.ofNat n), t)

/-- The rest of a string behind its opening mark. `fuel` bounds its length. -/
def readString : Nat → Text → Option (List Text.Point × Text)
  | 0, _ => none
  | _, [] => none
  | fuel + 1, c :: t =>
    if c = '"' then some ([], t)
    else if c = '\\' then
      match t with
      | [] => none
      | 'u' :: r => do
        let (n, r) ← hexUnit? r
        let (x, r) := unitPoint n r
        let (s, r) ← readString fuel r
        return (x :: s, r)
      | e :: r => do
        let x ← escaped? e
        let (s, r) ← readString fuel r
        return (.char x :: s, r)
    else if c.toNat < 32 then none
    else do
      let (s, r) ← readString fuel t
      return (.char c :: s, r)

/-- The digits of a whole number: no zero leads unless it stands alone. -/
def wholeDigits? (t : Text) : Option (Text × Text) :=
  match t with
  | '0' :: r => some (['0'], r)
  | _ =>
    let ds := t.takeWhile Text.isDigit
    if ds.isEmpty then none else some (ds, t.dropWhile Text.isDigit)

/-- A fraction or an exponent with the mark in front of it; a mark with nothing behind it is none. -/
def fractionPart (t : Text) : Text × Text :=
  match t with
  | '.' :: r =>
    let ds := r.takeWhile Text.isDigit
    if ds.isEmpty then ([], t) else ('.' :: ds, r.dropWhile Text.isDigit)
  | _ => ([], t)

def exponentPart (t : Text) : Text × Text :=
  match t with
  | e :: r =>
    if e = 'e' || e = 'E' then
      let (sign, r) := match r with
        | '-' :: r => (['-'], r)
        | '+' :: r => (['+'], r)
        | r => ([], r)
      let ds := r.takeWhile Text.isDigit
      if ds.isEmpty then ([], t) else ('e' :: sign ++ ds, r.dropWhile Text.isDigit)
    else ([], t)
  | [] => ([], t)

/-- A number; one with neither fraction nor exponent is whole. -/
def readNumber (t : Text) : Option (Value × Text) := do
  let (negative, r) := match t with
    | '-' :: r => (true, r)
    | r => (false, r)
  let (whole, r) ← wholeDigits? r
  let (frac, r) := fractionPart r
  let (expo, r) := exponentPart r
  if frac.isEmpty && expo.isEmpty then
    if whole.length > Text.maxDigits then none
    else
      let n : Int := Text.natOfDigits whole
      return (.int (if negative then -n else n), r)
  else
    let x ← Double.ofNumeral? (whole ++ frac ++ expo)
    return (.float (if negative then x.neg else x), r)

/-- The words that stand for values. -/
def wordValues : List (Text × Value) := [
  ("null", .null), ("true", .bool true), ("false", .bool false), ("NaN", .float .nan),
  ("Infinity", .float (.infinite false)), ("-Infinity", .float (.infinite true))]

mutual

/-- A value at the front of a text. `fuel` bounds how many readers are nested. -/
def readValue : Nat → Text → Option (Value × Text)
  | 0, _ => none
  | fuel + 1, t =>
    match t with
    | '"' :: r => (readString (r.length + 1) r).map fun (s, r) => (.ofPoints s, r)
    | '[' :: r =>
      match skipBlanks r with
      | ']' :: r => some (.list [], r)
      | r => (readItems fuel r).map fun (vs, r) => (.list vs, r)
    | '{' :: r =>
      match skipBlanks r with
      | '}' :: r => some (.map [], r)
      | r =>
        (readEntries fuel r).map fun (es, r) =>
          (.map ((Keyed.ofList es).map fun (k, v) => (.ofPoints k, v)), r)
    | _ =>
      match wordValues.findSome? fun (w, v) => (Text.dropStart? w t).map (v, ·) with
      | some found => some found
      | none => readNumber t

/-- The items of a list up to its closing bracket. -/
def readItems : Nat → Text → Option (List Value × Text)
  | 0, _ => none
  | fuel + 1, t => do
    let (v, r) ← readValue fuel (skipBlanks t)
    match skipBlanks r with
    | ',' :: r =>
      let (vs, r) ← readItems fuel r
      return (v :: vs, r)
    | ']' :: r => return ([v], r)
    | _ => none

/-- The entries of an object up to its closing brace. -/
def readEntries : Nat → Text → Option (List (List Text.Point × Value) × Text)
  | 0, _ => none
  | fuel + 1, t => do
    match skipBlanks t with
    | '"' :: r =>
      let (k, r) ← readString (r.length + 1) r
      let r ← Text.dropStart? ":" (skipBlanks r)
      let (v, r) ← readValue fuel (skipBlanks r)
      match skipBlanks r with
      | ',' :: r =>
        let (es, r) ← readEntries fuel r
        return ((k, v) :: es, r)
      | '}' :: r => return ([(k, v)], r)
      | _ => none
    | _ => none

end

/-- The value that a text holds, with nothing but blanks around it. -/
def read? (t : Text) : Option Value := do
  let (v, r) ← readValue (t.length + 1) (skipBlanks t)
  if (skipBlanks r).isEmpty then some v else none

end CodeManifest.Json
