namespace CodeManifest

/-- A text is the list of its characters, so that every operation on it is a recursion on data. -/
abbrev Text := List Char

instance : Coe String Text := ⟨String.toList⟩

namespace Text

/-- Does `part` stand somewhere in the text? -/
def occursIn (part : Text) : Text → Bool
  | [] => part.isEmpty
  | c :: t => part.isPrefixOf (c :: t) || occursIn part t

theorem occursIn_eq_true_iff {part t : Text} : occursIn part t = true ↔ part <:+: t := by
  induction t with
  | nil => simp [occursIn]
  | cons c t ih => simp [occursIn, List.infix_cons_iff, ih]

/-- The text with each `c` written as `c'`. -/
def mapChar (c c' : Char) (t : Text) : Text := t.map fun x => if x = c then c' else x

/-- The text without a leading `start`, if it has one. -/
def dropStart? : Text → Text → Option Text
  | [], t => some t
  | _ :: _, [] => none
  | a :: start, b :: t => if a = b then dropStart? start t else none

theorem dropStart?_eq_some_iff {start t r : Text} : dropStart? start t = some r ↔ t = start ++ r := by
  induction start generalizing t with
  | nil => simp [dropStart?]
  | cons a start ih =>
    cases t with
    | nil => simp [dropStart?]
    | cons b t =>
      by_cases h : a = b
      · simp [dropStart?, h, ih]
      · simp [dropStart?, h, Ne.symm h]

/-- The text without a trailing `stop`, if it has one. -/
def dropStop? (stop t : Text) : Option Text := stop.isSuffixOf? t

/-- The pieces between the characters in `p`; there is always at least one. -/
def split (p : Char → Bool) : Text → List Text
  | [] => [[]]
  | c :: t =>
    if p c then [] :: split p t
    else match split p t with
      | [] => [[c]]
      | w :: ws => (c :: w) :: ws

theorem split_ne_nil (p : Char → Bool) (t : Text) : split p t ≠ [] := by
  cases t with
  | nil => simp [split]
  | cons c t =>
    unfold split
    split
    · simp
    · split <;> simp

/-- The pieces with `sep` between them. -/
def join (sep : Text) (ts : List Text) : Text := sep.intercalate ts

theorem join_cons (sep t : Text) {ts : List Text} (h : ts ≠ []) : join sep (t :: ts) = t ++ sep ++ join sep ts := by
  obtain ⟨s, ts, rfl⟩ := List.exists_cons_of_ne_nil h
  simp [join, List.intercalate]

/-- A decimal numeral. -/
def ofNat (n : Nat) : Text := Nat.toDigits 10 n

/-- A decimal numeral with a minus sign where it is due. -/
def ofInt : Int → Text
  | .ofNat n => ofNat n
  | .negSucc n => '-' :: ofNat (n + 1)

def isDigit (c : Char) : Bool := '0' ≤ c && c ≤ '9'

/-- Whole numbers of more digits than this are neither read nor written. -/
def maxDigits : Nat := 4300

/-- The number a run of decimal digits stands for. -/
def natOfDigits (t : Text) : Nat := t.foldl (fun n c => 10 * n + (c.toNat - '0'.toNat)) 0

/-- A numeral padded with zeros to `width` digits. -/
def padded (width n : Nat) : Text :=
  let ds := ofNat n
  List.replicate (width - ds.length) '0' ++ ds

/-- Equality of two texts up to the letter case of their ASCII letters. -/
def asciiUpper (t : Text) : Text := t.map Char.toUpper

end Text

end CodeManifest
