import CodeManifest.Text

namespace CodeManifest

structure Date where
  year : Int
  month : Nat
  day : Nat
  deriving DecidableEq, Repr

namespace Date

/-- The days from 1970 to a date. Years begin in March here, so that the leap day comes last. -/
def toDays (d : Date) : Int :=
  let y : Int := if d.month ≤ 2 then d.year - 1 else d.year
  let era := y.fdiv 400
  let yearOfEra := y - era * 400
  let month : Int := ((d.month + 9) % 12 : Nat)
  let dayOfYear := (153 * month + 2) / 5 + d.day - 1
  let dayOfEra := yearOfEra * 365 + yearOfEra / 4 - yearOfEra / 100 + dayOfYear
  era * 146097 + dayOfEra - 719468

/-- The date so many days after the beginning of 1970. -/
def ofDays (days : Int) : Date :=
  let z := days + 719468
  let era := z.fdiv 146097
  let dayOfEra := z - era * 146097
  let yearOfEra := (dayOfEra - dayOfEra / 1460 + dayOfEra / 36524 - dayOfEra / 146096) / 365
  let dayOfYear := dayOfEra - (365 * yearOfEra + yearOfEra / 4 - yearOfEra / 100)
  let month := (5 * dayOfYear + 2) / 153
  let day := dayOfYear - (153 * month + 2) / 5 + 1
  let m := if month < 10 then month + 3 else month - 9
  let y := yearOfEra + era * 400
  ⟨if m ≤ 2 then y + 1 else y, m.toNat, day.toNat⟩

example : toDays ⟨1970, 1, 1⟩ = 0 ∧ toDays ⟨2000, 3, 1⟩ = 11017 := by decide
example : ofDays 11016 = ⟨2000, 2, 29⟩ ∧ ofDays (-1) = ⟨1969, 12, 31⟩ := by decide

def isLeap (year : Int) : Bool := year % 4 = 0 && (year % 100 ≠ 0 || year % 400 = 0)

/-- The days of a month. -/
def daysIn (year : Int) (month : Nat) : Nat :=
  if month = 2 then (if isLeap year then 29 else 28)
  else if [4, 6, 9, 11].contains month then 30 else 31

/-- Is there such a day? -/
def isValid (d : Date) : Bool :=
  1 ≤ d.year && d.year ≤ 9999 && 1 ≤ d.month && d.month ≤ 12 && 1 ≤ d.day &&
    d.day ≤ daysIn d.year d.month

/-- Year, month and day with dashes between them. -/
def render (d : Date) : Text :=
  Text.padded 4 d.year.toNat ++ '-' :: Text.padded 2 d.month ++ '-' :: Text.padded 2 d.day

end Date

/-- A point in time, in microseconds from the beginning of 1970, as a clock shows it that goes
`offset` seconds before universal time. -/
structure Instant where
  micros : Int
  offset : Int := 0
  deriving DecidableEq, Repr

namespace Instant

/-- The microseconds of a day. -/
def dayMicros : Int := 86400000000

/-- What the clock shows, as if it showed universal time. -/
def clock (i : Instant) : Int := i.micros + i.offset * 1000000

def date (i : Instant) : Date := .ofDays (i.clock.fdiv dayMicros)

/-- The microseconds since midnight. -/
def ofDay (i : Instant) : Nat := (i.clock - i.clock.fdiv dayMicros * dayMicros).toNat

def hour (i : Instant) : Nat := i.ofDay / 3600000000
def minute (i : Instant) : Nat := i.ofDay / 60000000 % 60
def second (i : Instant) : Nat := i.ofDay / 1000000 % 60
def microsecond (i : Instant) : Nat := i.ofDay % 1000000

/-- The same point in time on a clock of universal time. -/
def utc (i : Instant) : Instant := { i with offset := 0 }

/-- Hours, minutes and seconds with colons between them. -/
def renderTime (i : Instant) : Text :=
  Text.padded 2 i.hour ++ ':' :: Text.padded 2 i.minute ++ ':' :: Text.padded 2 i.second

/-- Microseconds, where there are any. -/
def renderMicros (i : Instant) : Text :=
  if i.microsecond = 0 then [] else '.' :: Text.padded 6 i.microsecond

/-- An offset from universal time, with its seconds where there are any. -/
def renderOffset (offset : Int) : Text :=
  let n := offset.natAbs
  let rest : Text := if n % 60 = 0 then [] else ':' :: Text.padded 2 (n % 60)
  (if offset < 0 then '-' else '+') :: Text.padded 2 (n / 3600) ++ ':' ::
    Text.padded 2 (n / 60 % 60) ++ rest

/-- Date, time and offset. -/
def render (i : Instant) : Text :=
  i.date.render ++ 'T' :: i.renderTime ++ i.renderMicros ++ renderOffset i.offset

/-- Date and time in universal time, to the millisecond. -/
def renderUtc (i : Instant) : Text :=
  let u := i.utc
  u.date.render ++ 'T' :: u.renderTime ++ '.' :: Text.padded 3 (u.microsecond / 1000) ++ ['Z']

/-- A number of exactly `n` digits at the front of a text. -/
def digits? (n : Nat) (t : Text) : Option (Nat × Text) :=
  let ds := t.take n
  if ds.length = n && ds.all Text.isDigit then some (Text.natOfDigits ds, t.drop n) else none

/-- A fraction of a second of up to six digits, in microseconds. -/
def fraction : Text → Nat × Text
  | '.' :: t =>
    let ds := t.takeWhile Text.isDigit
    (Text.natOfDigits (ds.take 6 ++ List.replicate (6 - ds.length) '0'), t.dropWhile Text.isDigit)
  | t => (0, t)

/-- An offset from universal time in seconds; nothing at all stands for none. -/
def offset? : Text → Option Int
  | [] | ['Z'] => some 0
  | sign :: t => do
    let (h, t) ← digits? 2 t
    let t ← Text.dropStart? ":" t
    let (m, t) ← digits? 2 t
    let s ← match t with
      | [] => some 0
      | ':' :: t => (digits? 2 t).bind fun (s, r) => if r.isEmpty then some s else none
      | _ => none
    let n : Int := (h * 3600 + m * 60 + s : Nat)
    if sign = '+' then some n else if sign = '-' then some (-n) else none

/-- The point in time that a clock with an offset shows. -/
def ofClock (d : Date) (hour minute second micro : Nat) (offset : Int) : Instant :=
  ⟨d.toDays * dayMicros + (((hour * 60 + minute) * 60 + second) * 1000000 + micro : Nat) -
    offset * 1000000, offset⟩

/-- Reads date, time and offset. -/
def read? (t : Text) : Option Instant := do
  let (year, t) ← digits? 4 t
  let (month, t) ← digits? 2 (← Text.dropStart? "-" t)
  let (day, t) ← digits? 2 (← Text.dropStart? "-" t)
  let (hour, t) ← digits? 2 (← Text.dropStart? "T" t)
  let (minute, t) ← digits? 2 (← Text.dropStart? ":" t)
  let (second, t) ← digits? 2 (← Text.dropStart? ":" t)
  let (micro, t) := fraction t
  return ofClock ⟨year, month, day⟩ hour minute second micro (← offset? t)

end Instant

end CodeManifest
