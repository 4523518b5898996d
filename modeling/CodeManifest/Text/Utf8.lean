import CodeManifest.Text

namespace CodeManifest.Text

namespace Utf8

/-- What a leading byte tells: its own bits, how many bytes follow, and the bounds of the first of
those. The bounds keep out long forms, halves of pairs, and numbers beyond the last character. -/
def lead? (b : Nat) : Option (Nat × Nat × Nat × Nat) :=
  if b < 0x80 then some (b, 0, 0, 0)
  else if b < 0xC2 then none
  else if b < 0xE0 then some (b - 0xC0, 1, 0x80, 0xBF)
  else if b < 0xF0 then
    some (b - 0xE0, 2, if b = 0xE0 then 0xA0 else 0x80, if b = 0xED then 0x9F else 0xBF)
  else if b < 0xF5 then
    some (b - 0xF0, 3, if b = 0xF0 then 0x90 else 0x80, if b = 0xF4 then 0x8F else 0xBF)
  else none

/-- Takes `n` following bytes up into a number, the first of them between bounds. Tells how many of
them fit. -/
def follow : Nat → Nat → Nat → Nat → List UInt8 → Option Nat × Nat
  | 0, _, _, value, _ => (some value, 0)
  | _ + 1, _, _, _, [] => (none, 0)
  | n + 1, low, high, value, b :: bs =>
    if low ≤ b.toNat && b.toNat ≤ high then
      let (v, taken) := follow n 0x80 0xBF (value * 64 + b.toNat % 64) bs
      (v, taken + 1)
    else (none, 0)

/-- The character at the front of some bytes, or nothing where there is none, and how many bytes
behind the first go with it. -/
def step (b : UInt8) (bs : List UInt8) : Option Char × Nat :=
  match lead? b.toNat with
  | none => (none, 0)
  | some (value, n, low, high) =>
    let (v, taken) := follow n low high value bs
    (v.map Char.ofNat, taken)

end Utf8

/-- The text of some bytes, if all of them are UTF-8. -/
def ofUtf8? : List UInt8 → Option Text
  | [] => some []
  | b :: bs =>
    match Utf8.step b bs with
    | (some c, n) => (ofUtf8? (bs.drop n)).map (c :: ·)
    | (none, _) => none
termination_by bs => bs.length
decreasing_by simp only [List.length_drop, List.length_cons]; omega

/-- The text of some bytes. What begins like a character and is none becomes one replacement mark. -/
def ofUtf8 : List UInt8 → Text
  | [] => []
  | b :: bs =>
    let (c, n) := Utf8.step b bs
    c.getD '\uFFFD' :: ofUtf8 (bs.drop n)
termination_by bs => bs.length
decreasing_by simp only [List.length_drop, List.length_cons]; omega

theorem ofUtf8_of_ofUtf8? {bs : List UInt8} {t : Text} (h : ofUtf8? bs = some t) : ofUtf8 bs = t := by
  induction bs using ofUtf8?.induct generalizing t with
  | case1 => simp_all [ofUtf8?, ofUtf8]
  | case2 b bs c n hs ih =>
    rw [ofUtf8?, hs] at h
    obtain ⟨r, hr, rfl⟩ := Option.map_eq_some_iff.mp h
    rw [ofUtf8, hs]
    simp [ih hr]
  | case3 b bs n hs =>
    rw [ofUtf8?, hs] at h
    simp at h

def toUtf8 (t : Text) : ByteArray := (String.ofList t).toUTF8

/-- Every line end that has a carriage return as a line feed. -/
def unifyLineEnds : Text → Text
  | [] => []
  | '\r' :: '\n' :: t => '\n' :: unifyLineEnds t
  | c :: t => (if c = '\r' then '\n' else c) :: unifyLineEnds t

end CodeManifest.Text
