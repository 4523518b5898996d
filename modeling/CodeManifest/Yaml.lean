import CodeManifest.Json.Read
import CodeManifest.Text.Blank
import CodeManifest.Text.LowerCase
import CodeManifest.Value
import CodeManifest.Yaml.Node
import CodeManifest.Yaml.Tag

namespace CodeManifest.Yaml

/-- The number that digits of a base stand for, with no other characters around them. -/
def digits (base : Nat) (t : Text) : Except Defect Nat :=
  let value : Option Nat := t.foldlM (fun n c => do
    let d ← Json.hexDigit? c
    if d < base then some (base * n + d) else none) 0
  match value with
  | some n => if t.isEmpty then .error .outOfRange else .ok n
  | none => .error .outOfRange

/-- A decimal numeral. One of too many digits is refused. -/
def decimal (t : Text) : Except Defect Nat :=
  if t.length > Text.maxDigits then .error .outOfRange else digits 10 t

/-- Numerals to base sixty, the last first. -/
def sixtieths : List Nat → Nat
  | [] => 0
  | n :: ns => n + 60 * sixtieths ns

/-- The whole number that a text stands for. Low lines say nothing. -/
def wholeNumber (t : Text) : Except Defect Int := do
  let t := t.filter (· ≠ '_')
  let n ← match unsigned t with
    | [] => .error .noDigits
    | ['0'] => .ok 0
    | '0' :: 'b' :: ds => digits 2 ds
    | '0' :: 'x' :: ds => digits 16 ds
    | '0' :: ds => digits 8 ('0' :: ds)
    | u => do
      let parts ← (Text.split (· = ':') u).mapM decimal
      .ok (sixtieths parts.reverse)
  return if t.head? = some '-' then -n else n

/-- A numeral that may have a point, or a name of what is no number. -/
def fractional (t : Text) : Except Defect Double :=
  if t = "inf".toList || t = "infinity".toList then .ok (.infinite false)
  else if t = "nan".toList then .ok .nan
  else match Double.ofNumeral? t with
    | some x => .ok x
    | none => .error .outOfRange

/-- The sum of numerals to base sixty, the last first, each with its weight. -/
def weighed : Nat → Double → List Double → Double
  | _, sum, [] => sum
  | weight, sum, x :: xs => weighed (weight * 60) (sum.add (x.scale weight)) xs

/-- The number that a text stands for. Low lines and the letter case say nothing. -/
def number (t : Text) : Except Defect Double := do
  let t := Text.lower (t.filter (· ≠ '_'))
  let u := unsigned t
  if t.isEmpty then .error .noDigits
  else if u = ".nan".toList then return .nan
  else
    let x ←
      if u = ".inf".toList then pure (.infinite false)
      else if u.contains ':' then do
        let parts ← (Text.split (· = ':') u).mapM fractional
        pure (weighed 1 (Double.ofInt 0) parts.reverse)
      else fractional u
    return if t.head? = some '-' then x.neg else x

/-- The microseconds that the digits behind the point of a second stand for. -/
def micros (fraction : Text) : Nat :=
  Text.natOfDigits (fraction.take 6 ++ List.replicate (6 - fraction.length) '0')

/-- The date or the point in time that a text stands for. -/
def time (t : Text) : Except Defect Value :=
  match Moment.ofText? t with
  | none => .error .noTime
  | some m =>
    if !m.date.isValid then .error .outOfRange
    else match m.clock with
      | none => .ok (.date m.date)
      | some c =>
        let offset := c.offset.getD 0
        if c.hour < 24 && c.minute < 60 && c.second < 60 && offset.natAbs < 86400 then
          .ok (.time (.ofClock m.date c.hour c.minute c.second (micros c.fraction) offset) c.offset.isSome)
        else .error .outOfRange

/-- The value of a text of a type. -/
def scalar (t : Text) : Tag → Except Defect Value
  | .null => .ok .null
  | .bool =>
    match truthNames.lookup (Text.lower t) with
    | some b => .ok (.bool b)
    | none => .error .noTruthValue
  | .int => (wholeNumber t).map .int
  | .float => (number t).map .float
  | .time => time t
  | .text => .ok (.text t)
  | .sequence | .mapping | .merge | .default => .error .malformed

/-- The number that a key is, a truth value being zero or one. -/
def numberOf? : Value → Option (Int ⊕ Double)
  | .bool b => some (.inl (if b then 1 else 0))
  | .int n => some (.inl n)
  | .float x =>
    match x.toInt? with
    | some n => some (.inl n)
    | none => some (.inr x)
  | _ => none

/-- Are these the same key? Numbers are by their value. -/
def isSameKey : Value → Value → Bool
  | .null, .null => true
  | .text s, .text t => s = t
  | .date d, .date e => d = e
  | .time i zoned, .time j zoned' => zoned = zoned' && i.micros = j.micros
  | v, w =>
    match numberOf? v, numberOf? w with
    | some m, some n => m = n
    | _, _ => false

/-- The entries with `v` under `k`; a key that is there keeps its place. -/
def put (k v : Value) : List (Value × Value) → List (Value × Value)
  | [] => [(k, v)]
  | (l, w) :: es => if isSameKey l k then (l, v) :: es else (l, w) :: put k v es

/-- The mapping of entries of which later ones replace earlier ones. Lists and mappings are no keys. -/
def mapping (es : List (Value × Value)) : Except Defect Value :=
  if es.any fun e => isCollection e.1 then .error .malformed
  else .ok (.map (es.foldl (fun acc e => put e.1 e.2 acc) []))
where
  isCollection : Value → Bool
    | .list _ | .map _ => true
    | _ => false

namespace Node

/-- The type of a scalar: that of its tag, or else that of its looks if it is plain. -/
def typeOf? (tag : Option Text) (isPlain : Bool) (t : Text) : Option Tag :=
  match tag with
  | some address => Tag.ofAddress? address
  | none => some (if isPlain then .ofPlain t else .text)

/-- Is this a key with a meaning of its own? -/
def isKey (tag : Tag) : Node → Bool
  | scalar t isPlain s => typeOf? t isPlain s = some tag
  | _ => false

/-- Does a tag fit a collection? -/
def fits (tag : Option Text) (kind : Tag) : Bool := tag.all fun t => Tag.ofAddress? t = some kind

/-- The value of a key by its text alone. -/
def keyText? : Node → Option Value
  | scalar t isPlain s => if typeOf? t isPlain s = some .default then some (.text s) else none
  | _ => none

mutual

/-- The value of a node. -/
def value : Node → Except Defect Value
  | scalar tag isPlain t =>
    match typeOf? tag isPlain t with
    | some type => Yaml.scalar t type
    | none => .error .malformed
  | sequence tag items => do
    let vs ← values items
    if fits tag .sequence then return .list vs else .error .malformed
  | mapping tag es => do
    let (taken, own) ← entries es
    if fits tag .mapping then Yaml.mapping (taken ++ own) else .error .malformed

def values : List Node → Except Defect (List Value)
  | [] => return []
  | n :: ns => do
    let v ← value n
    return v :: (← values ns)

/-- The entries that a mapping takes over from others, and its own. -/
def entries : List (Node × Node) → Except Defect (List (Value × Value) × List (Value × Value))
  | [] => return ([], [])
  | (k, v) :: es => do
    if isKey .merge k then
      let more ← takenFrom v
      let (taken, own) ← entries es
      return (more ++ taken, own)
    else
      let key ← match keyText? k with
        | some t => pure t
        | none => value k
      let v ← value v
      let (taken, own) ← entries es
      return (taken, (key, v) :: own)

/-- The entries of a mapping, or of several, of which the first counts most. -/
def takenFrom : Node → Except Defect (List (Value × Value))
  | mapping _ es => do
    let (taken, own) ← entries es
    return taken ++ own
  | sequence _ items => takenFromAll items
  | scalar _ _ _ => .error .malformed

/-- The entries of several mappings, those of the last in front. -/
def takenFromAll : List Node → Except Defect (List (Value × Value))
  | [] => return []
  | mapping _ es :: ns => do
    let (taken, own) ← entries es
    return (← takenFromAll ns) ++ (taken ++ own)
  | _ :: _ => .error .malformed

end

end Node

/-- The value that a text holds. A text without a document holds nothing. -/
def read (t : Text) : Except Defect Value := do
  match ← Node.ofText t with
  | some n => n.value
  | none => return .null

end CodeManifest.Yaml
