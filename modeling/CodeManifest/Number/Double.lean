import CodeManifest.Text

namespace CodeManifest

/-- A number of double precision. A finite one is `significand · 2 ^ exponent` under its sign. -/
inductive Double where
  | finite (negative : Bool) (significand : Nat) (exponent : Int)
  | infinite (negative : Bool)
  | nan
  deriving DecidableEq, Repr

namespace Double

def neg : Double → Double
  | finite s m e => finite (!s) m e
  | infinite s => infinite (!s)
  | nan => nan

def isZero : Double → Bool
  | finite _ m _ => m = 0
  | _ => false

/-- `num / den` rounded to a whole number, a half to the even neighbour. -/
def roundHalfEven (num den : Nat) : Nat :=
  let q := num / den
  let twice := 2 * (num % den)
  if twice > den || (twice = den && q % 2 = 1) then q + 1 else q

/-- Numerator and denominator of `num / den · 2 ^ e`. -/
def scaled (num den : Nat) (e : Int) : Nat × Nat :=
  if 0 ≤ e then (num * Nat.pow 2 e.toNat, den) else (num, den * Nat.pow 2 (-e).toNat)

/-- The number nearest to `num / den`. -/
def ofRatio (negative : Bool) (num den : Nat) : Double :=
  if num = 0 then finite negative 0 (-1074)
  else
    let guess : Int := (Nat.log2 num : Int) - (Nat.log2 den : Int) - 53
    let (n, d) := scaled num den (-guess)
    let e := max (-1074) (if Nat.pow 2 53 ≤ n / d then guess + 1 else guess)
    let (n, d) := scaled num den (-e)
    let m := roundHalfEven n d
    let (m, e) := if m = Nat.pow 2 53 then (Nat.pow 2 52, e + 1) else (m, e)
    if e > 971 then infinite negative else finite negative m e

/-- The number nearest to `digits · 10 ^ e`. Where the power of ten is out of all bounds the answer
does not depend on the digits. -/
def ofDecimal (negative : Bool) (digits : Nat) (e : Int) : Double :=
  if digits = 0 then finite negative 0 (-1074)
  else
    let size : Int := (Text.ofNat digits).length + e
    if size > 400 then infinite negative
    else if size < -400 then finite negative 0 (-1074)
    else if 0 ≤ e then ofRatio negative (digits * Nat.pow 10 e.toNat) 1
    else ofRatio negative digits (Nat.pow 10 (-e).toNat)

/-- The number nearest to a whole number. -/
def ofInt (n : Int) : Double := ofDecimal (n < 0) n.natAbs 0

/-- The number nearest to `n · 2 ^ e`. -/
def ofScaled (n : Int) (e : Int) : Double :=
  let (num, den) := scaled n.natAbs 1 e
  ofRatio (n < 0) num den

/-- The whole number under the power of two, with its sign. -/
def signed (negative : Bool) (m : Nat) : Int := if negative then -m else m

/-- The sum, rounded. -/
def add : Double → Double → Double
  | finite s m e, finite t n f =>
    let low := min e f
    ofScaled (signed s (m * Nat.pow 2 (e - low).toNat) + signed t (n * Nat.pow 2 (f - low).toNat)) low
  | finite _ _ _, y => y
  | infinite s, infinite t => if s = t then infinite s else nan
  | infinite s, finite _ _ _ => infinite s
  | infinite _, nan | nan, _ => nan

/-- The product with a positive whole number, rounded. -/
def scale (k : Nat) : Double → Double
  | finite s m e => ofScaled (signed s (m * k)) e
  | x => x

/-- The whole number that this is, if it is one. -/
def toInt? : Double → Option Int
  | finite s m e =>
    if 0 ≤ e then some (signed s (m * Nat.pow 2 e.toNat))
    else
      let d := Nat.pow 2 (-e).toNat
      if m % d = 0 then some (signed s (m / d)) else none
  | _ => none

/-- The parts of a numeral: the digits before the point, those behind it, and the exponent. -/
def parts? (t : Text) : Option (Text × Text × Int) :=
  let whole := t.takeWhile Text.isDigit
  let rest := t.dropWhile Text.isDigit
  let (frac, rest) := match rest with
    | '.' :: r => (r.takeWhile Text.isDigit, r.dropWhile Text.isDigit)
    | r => ([], r)
  if whole.isEmpty && frac.isEmpty then none
  else match rest with
    | [] => some (whole, frac, 0)
    | c :: r =>
      if c ≠ 'e' && c ≠ 'E' then none
      else
        let (negative, ds) := match r with
          | '-' :: ds => (true, ds)
          | '+' :: ds => (false, ds)
          | ds => (false, ds)
        if ds.isEmpty || !ds.all Text.isDigit then none
        else
          let n : Int := Text.natOfDigits ds
          some (whole, frac, if negative then -n else n)

/-- The number a numeral without a sign stands for: digits with a point and an exponent, both of
which may be missing. -/
def ofNumeral? (t : Text) : Option Double :=
  (parts? t).map fun (whole, frac, e) =>
    ofDecimal false (Text.natOfDigits (whole ++ frac)) (e - frac.length)

/-- The largest `e` with `10 ^ e ≤ num / den`, for a positive ratio. -/
def log10 (num den : Nat) : Int :=
  if den ≤ num then (Text.ofNat (num / den)).length - 1
  else -((Text.ofNat ((den + num - 1) / num - 1)).length : Int)

/-- The decimals with `count` digits on either side of the number `4 m · 2 ^ (e - 2)`, as digits and
a power of ten; of those that lie between the bounds the nearer one. -/
def decimalWith (count : Nat) (below : Nat) (m : Nat) (e : Int) : Option (Nat × Int) :=
  let (n, d) := scaled (4 * m) 1 (e - 2)
  let (lo, _) := scaled (4 * m - below) 1 (e - 2)
  let (hi, _) := scaled (4 * m + 2) 1 (e - 2)
  let p : Int := log10 n d - count + 1
  let up := Nat.pow 10 p.toNat
  let down := Nat.pow 10 (-p).toNat
  let q := n * down / (d * up)
  let within := fun (c : Nat) =>
    let x := c * up * d
    if m % 2 = 0 then lo * down ≤ x && x ≤ hi * down else lo * down < x && x < hi * down
  let distance := fun (c : Nat) => max (n * down) (c * up * d) - min (n * down) (c * up * d)
  match within q, within (q + 1) with
  | true, true =>
    if distance q < distance (q + 1) || (distance q = distance (q + 1) && q % 2 = 0) then some (q, p)
    else some (q + 1, p)
  | true, false => some (q, p)
  | false, true => some (q + 1, p)
  | false, false => none

/-- The shortest decimal that rounds to a positive number, nearest to it among those: its digits and
the power of ten of their last. Seventeen digits always suffice. -/
def shortest (m : Nat) (e : Int) : Nat × Int :=
  let below := if m = Nat.pow 2 52 && e > -1074 then 1 else 2
  ((List.range 17).findSome? fun k => decimalWith (k + 1) below m e).getD (m, 0)

/-- The text of a number: positional from `10⁻⁴` up to `10¹⁶`, with an exponent beyond. -/
def render : Double → Text
  | nan => "nan"
  | infinite s => if s then "-inf" else "inf"
  | finite s m e =>
    let sign : Text := if s then ['-'] else []
    if m = 0 then sign ++ "0.0".toList
    else
      let (digits, p) := shortest m e
      let all := Text.ofNat digits
      let ds := (all.reverse.dropWhile (· = '0')).reverse
      let point : Int := all.length + p
      let body : Text :=
        if -4 < point && point ≤ 16 then
          if point ≤ 0 then '0' :: '.' :: List.replicate (-point).toNat '0' ++ ds
          else if ds.length ≤ point.toNat then
            ds ++ List.replicate (point.toNat - ds.length) '0' ++ ['.', '0']
          else ds.take point.toNat ++ '.' :: ds.drop point.toNat
        else
          let x := point - 1
          let frac : Text := if ds.length ≤ 1 then [] else '.' :: ds.drop 1
          ds.take 1 ++ frac ++ 'e' :: (if x < 0 then '-' else '+') :: Text.padded 2 x.natAbs
      sign ++ body

end Double

end CodeManifest
