import CodeManifest.Calendar
import CodeManifest.Number.Double
import CodeManifest.Text.Point
import CodeManifest.Text.Quoted

namespace CodeManifest

/-- A value. Entries of a map are in the order in which their keys came up first. -/
inductive Value where
  | null
  | bool (b : Bool)
  | int (n : Int)
  | float (x : Double)
  | text (t : Text)
  /-- a text with halves of surrogate pairs in it -/
  | halved (ps : List Text.Point)
  | list (items : List Value)
  | map (entries : List (Value × Value))
  | date (d : Date)
  /-- a date with a time; `zoned` tells whether its offset from universal time is known -/
  | time (i : Instant) (zoned : Bool)
  deriving Inhabited

namespace Value

/-- The text of some points. -/
def ofPoints (ps : List Text.Point) : Value :=
  match ps.mapM Text.Point.char? with
  | some t => text t
  | none => halved ps

/-- Does the text of the value have bytes? In the notation of a value halves are escapes. -/
def hasBytes : Value → Bool
  | halved _ => false
  | _ => true

/-- Does the value count as present? Nothing, `false`, zero and everything empty do not. -/
def isTruthy : Value → Bool
  | null => false
  | bool b => b
  | int n => n ≠ 0
  | float x => !x.isZero
  | text t => !t.isEmpty
  | halved ps => !ps.isEmpty
  | list items => !items.isEmpty
  | map entries => !entries.isEmpty
  | date _ | time _ _ => true

/-- Is this the text `k`? -/
def isText (k : Text) : Value → Bool
  | text t => t = k
  | _ => false

/-- What stands under a text key of a map. -/
def get? (k : Text) : Value → Option Value
  | map entries => (entries.find? fun e => e.1.isText k).map Prod.snd
  | _ => none

/-- A text with halves in quotation marks. -/
private def pointNotation (ps : List Text.Point) : Text :=
  let q := Text.quoteMark (ps.map Text.Point.shown)
  let quotedPoint : Text.Point → Text
    | .char c => Text.quotedChar q c
    | .half k => '\\' :: 'u' :: Text.hexadecimal 4 (Text.Point.unitOf k)
  q :: ps.flatMap quotedPoint ++ [q]

/-- The arguments that make up a point in time. -/
private def timeNotation (i : Instant) (zoned : Bool) : Text :=
  let d := i.date
  let seconds : List Nat :=
    if i.microsecond ≠ 0 then [i.second, i.microsecond] else if i.second ≠ 0 then [i.second] else []
  let fields := [Text.ofInt d.year, Text.ofNat d.month, Text.ofNat d.day, Text.ofNat i.hour,
    Text.ofNat i.minute] ++ seconds.map Text.ofNat
  let days := i.offset.fdiv 86400
  let rest := i.offset - days * 86400
  let delta : Text :=
    (if days = 0 then [] else "days=".toList ++ Text.ofInt days ++ (if rest = 0 then [] else [',', ' '])) ++
      (if rest = 0 then [] else "seconds=".toList ++ Text.ofInt rest)
  let zone : Text :=
    if !zoned then []
    else if i.offset = 0 then ", tzinfo=datetime.timezone.utc"
    else ", tzinfo=datetime.timezone(datetime.timedelta(".toList ++ delta ++ [')', ')']
  "datetime.datetime(".toList ++ Text.join ", " fields ++ zone ++ [')']

mutual

/-- The notation of a value, in which texts are quoted. -/
def notate : Value → Text
  | null => "None"
  | bool b => if b then "True" else "False"
  | int n => Text.ofInt n
  | float x => x.render
  | text t => Text.quoted t
  | halved ps => pointNotation ps
  | list items => '[' :: Text.join ", " (notateAll items) ++ [']']
  | map entries => '{' :: Text.join ", " (notateEntries entries) ++ ['}']
  | date d =>
    "datetime.date(".toList ++ Text.join ", " [Text.ofInt d.year, Text.ofNat d.month, Text.ofNat d.day] ++ [')']
  | time i zoned => timeNotation i zoned

def notateAll : List Value → List Text
  | [] => []
  | v :: vs => notate v :: notateAll vs

def notateEntries : List (Value × Value) → List Text
  | [] => []
  | (k, v) :: es => (notate k ++ ':' :: ' ' :: notate v) :: notateEntries es

end

mutual

/-- Does the value have a text? With a whole number of too many digits in it, it has none. -/
def isWritable : Value → Bool
  | int n => (Text.ofNat n.natAbs).length ≤ Text.maxDigits
  | list items => isWritableAll items
  | map entries => isWritableEntries entries
  | _ => true

def isWritableAll : List Value → Bool
  | [] => true
  | v :: vs => isWritable v && isWritableAll vs

def isWritableEntries : List (Value × Value) → Bool
  | [] => true
  | (k, v) :: es => isWritable k && isWritable v && isWritableEntries es

end

/-- The text of a value. A text is its own; dates and times are plain, all else is in notation. -/
def toText : Value → Text
  | text t => t
  | halved ps => ps.map Text.Point.shown
  | date d => d.render
  | time i zoned =>
    i.date.render ++ ' ' :: i.renderTime ++ i.renderMicros ++
      (if zoned then Instant.renderOffset i.offset else [])
  | v => v.notate

end Value

end CodeManifest
