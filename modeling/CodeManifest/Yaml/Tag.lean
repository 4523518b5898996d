import CodeManifest.Calendar
import CodeManifest.Yaml.Cursor

namespace CodeManifest.Yaml

inductive Tag where
  | null
  | bool
  | int
  | float
  | time
  | text
  | sequence
  | mapping
  /-- the key under which another mapping is taken over -/
  | merge
  /-- the key of a value that stands for its mapping -/
  | default
  deriving DecidableEq, Repr

namespace Tag

/-- The names of tags behind the address that they share. -/
def names : List (Text × Tag) := [
  ("null", null), ("bool", bool), ("int", int), ("float", float), ("timestamp", time), ("str", text),
  ("seq", sequence), ("map", mapping), ("merge", merge), ("value", default)]

/-- The tag of an address, if it is known. -/
def ofAddress? (t : Text) : Option Tag := (Text.dropStart? "tag:yaml.org,2002:" t).bind (List.lookup · names)

end Tag

/-- The text without a sign in front of it. -/
def unsigned : Text → Text
  | '+' :: t | '-' :: t => t
  | t => t

def isDigitOrLow (c : Char) : Bool := Text.isDigit c || c = '_'

/-- A digit, and digits and low lines behind it. -/
def isCount : Text → Bool
  | [] => false
  | c :: t => Text.isDigit c && t.all isDigitOrLow

/-- A numeral of minutes or seconds: one digit, or two of which the first is less than six. -/
def isSixtieth : Text → Bool
  | [c] => Text.isDigit c
  | [c, d] => '0' ≤ c && c ≤ '5' && Text.isDigit d
  | _ => false

/-- Numerals to base sixty with colons between them, at least two. -/
def isSexagesimal (t : Text) : Bool :=
  match Text.split (· = ':') t with
  | first :: p :: ps => isCount first && (p :: ps).all isSixtieth
  | _ => false

/-- A whole number: binary, octal, to base sixteen, decimal, or to base sixty. -/
def looksWhole (t : Text) : Bool :=
  match unsigned t with
  | '0' :: 'b' :: ds => !ds.isEmpty && ds.all fun c => c = '0' || c = '1' || c = '_'
  | '0' :: 'x' :: ds => !ds.isEmpty && ds.all fun c => (isDigitOrLow c || "abcdefABCDEF".toList.contains c)
  | '0' :: ds => ds.all fun c => ('0' ≤ c && c ≤ '7') || c = '_'
  | u => isCount u || isSexagesimal u

/-- Nothing, or an exponent with its sign. -/
def isExponent : Text → Bool
  | [] => true
  | [_] => false
  | e :: sign :: ds =>
    (e = 'e' || e = 'E') && (sign = '-' || sign = '+') && !ds.isEmpty && ds.all Text.isDigit

/-- A number with a point, or a name of what is none. -/
def looksFractional (t : Text) : Bool :=
  let u := unsigned t
  match u.dropWhile (· ≠ '.') with
  | [] => false
  | _ :: r =>
    let whole := u.takeWhile (· ≠ '.')
    let hasEnd := isExponent (r.dropWhile isDigitOrLow)
    if whole.isEmpty then
      ["inf", "Inf", "INF"].any (·.toList = r) ||
        (u = t && (["nan", "NaN", "NAN"].any (·.toList = r) || (r.head?.any Text.isDigit && hasEnd)))
    else (isCount whole && hasEnd) || (isSexagesimal whole && r.all isDigitOrLow)

/-- The names of truth values. -/
def truthNames : List (Text × Bool) := [
  ("yes", true), ("no", false), ("true", true), ("false", false), ("on", true), ("off", false)]

/-- Small letters, capitals, or a capital in front of small letters. -/
def spellings (t : Text) : List Text :=
  [t, Text.asciiUpper t, Text.asciiUpper (t.take 1) ++ t.drop 1]

/-- A time of day as it is written. -/
structure Clock where
  hour : Nat
  minute : Nat
  second : Nat
  /-- the digits behind the point -/
  fraction : Text := []
  /-- the offset from universal time in seconds, if there is one -/
  offset : Option Int := none

/-- A date as it is written, with a time of day if one is. -/
structure Moment where
  date : Date
  /-- do month and day have two digits each? -/
  isPadded : Bool
  clock : Option Clock

namespace Moment

/-- A number of one digit or two at the front of a text, and how many there are. -/
def oneOrTwo? (t : Text) : Option (Nat × Nat × Text) :=
  let ds := t.takeWhile Text.isDigit
  if ds.length = 1 || ds.length = 2 then
    some (Text.natOfDigits ds, ds.length, t.dropWhile Text.isDigit)
  else none

def isBlank (c : Char) : Bool := c = ' ' || c = '\t'

/-- The offset from universal time at the end of a text. -/
def offset? (t : Text) : Option (Option Int) :=
  match t.dropWhile isBlank with
  | [] => if t.isEmpty then some none else none
  | ['Z'] => some (some 0)
  | sign :: r => do
    let (hours, _, r) ← oneOrTwo? r
    let minutes ← match r with
      | [] => some 0
      | ':' :: r => (Instant.digits? 2 r).bind fun (m, r) => if r.isEmpty then some m else none
      | _ => none
    let n : Int := (hours * 3600 + minutes * 60 : Nat)
    if sign = '+' then some (some n) else if sign = '-' then some (some (-n)) else none

/-- The time of day behind a date. -/
def clock? (t : Text) : Option Clock := do
  let t ← match t with
    | 'T' :: r | 't' :: r => some r
    | c :: r => if isBlank c then some (r.dropWhile isBlank) else none
    | [] => none
  let (hour, _, t) ← oneOrTwo? t
  let (minute, t) ← Instant.digits? 2 (← Text.dropStart? ":" t)
  let (second, t) ← Instant.digits? 2 (← Text.dropStart? ":" t)
  let (fraction, t) := match t with
    | '.' :: r => (r.takeWhile Text.isDigit, r.dropWhile Text.isDigit)
    | r => ([], r)
  return ⟨hour, minute, second, fraction, ← offset? t⟩

/-- Reads a date, and a time of day if anything stands behind the date. -/
def ofText? (t : Text) : Option Moment := do
  let (year, t) ← Instant.digits? 4 t
  let (month, m, t) ← oneOrTwo? (← Text.dropStart? "-" t)
  let (day, d, t) ← oneOrTwo? (← Text.dropStart? "-" t)
  let clock ← if t.isEmpty then some none else (clock? t).map some
  return ⟨⟨year, month, day⟩, m = 2 && d = 2, clock⟩

end Moment

/-- A time: a date in full, or a date with a time of day. -/
def looksTime (t : Text) : Bool := (Moment.ofText? t).any fun m => m.isPadded || m.clock.isSome

/-- The type that a plain text has by its looks. -/
def Tag.ofPlain (t : Text) : Tag :=
  if truthNames.any fun e => (spellings e.1).contains t then .bool
  else if looksFractional t then .float
  else if looksWhole t then .int
  else if t = "<<".toList then .merge
  else if t = [] || t = ['~'] || (spellings "null").contains t then .null
  else if looksTime t then .time
  else if t = ['='] then .default
  else .text

end CodeManifest.Yaml
