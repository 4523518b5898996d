import CodeManifest.Proofs.Text.Pieces
import CodeManifest.Text.Blank
import CodeManifest.Text.Word
import Mathlib.Data.List.DropRight

namespace CodeManifest.Text

section Runs

variable {p : Char → Bool} {s t : Text}

/-- A run ends in front of the first character that does not belong to it. -/
theorem takeWhile_append (hs : ∀ c ∈ s, p c = true) (ht : ∀ c ∈ t.head?, p c = false) :
    (s ++ t).takeWhile p = s := by
  have hstop : t.takeWhile p = [] := by cases t <;> simp_all
  rw [List.takeWhile_append_of_pos hs, hstop, List.append_nil]

theorem dropWhile_append (hs : ∀ c ∈ s, p c = true) (ht : ∀ c ∈ t.head?, p c = false) :
    (s ++ t).dropWhile p = t := by
  rw [List.dropWhile_append_of_pos hs]
  cases t <;> simp_all

end Runs

/-- The text is not empty, and neither begins nor ends with a blank. -/
structure IsTight (t : Text) : Prop where
  ne_nil : t ≠ []
  trim_eq : trim t = t

instance (t : Text) : Decidable t.IsTight := decidable_of_iff (t ≠ [] ∧ trim t = t)
  ⟨fun h => ⟨h.1, h.2⟩, fun h => ⟨h.ne_nil, h.trim_eq⟩⟩

theorem trimLeft_eq_self {t : Text} : trimLeft t = t ↔ ∀ c ∈ t.head?, isBlank c = false := by
  unfold trimLeft
  rw [List.dropWhile_eq_self_iff]
  cases t <;> simp

/-- What begins a text without blanks in front begins with no blank either. -/
theorem trimLeft_of_prefix {s t : Text} (h : s <+: t) (ht : trimLeft t = t) : trimLeft s = s := by
  rw [trimLeft_eq_self] at ht ⊢
  obtain ⟨r, rfl⟩ := h
  cases s with
  | nil => simp
  | cons c s => simpa using ht

theorem isPrefix_trimRight (t : Text) : trimRight t <+: t := List.rdropWhile_prefix isBlank t

theorem trimLeft_trimLeft (t : Text) : trimLeft (trimLeft t) = trimLeft t :=
  List.dropWhile_idempotent isBlank t

theorem trimRight_trimRight (t : Text) : trimRight (trimRight t) = trimRight t :=
  List.rdropWhile_idempotent isBlank t

theorem trim_trim (t : Text) : trim (trim t) = trim t := by
  have hleft : trimLeft (trim t) = trim t :=
    trimLeft_of_prefix (isPrefix_trimRight (trimLeft t)) (trimLeft_trimLeft t)
  calc trim (trim t) = trimRight (trim t) := by rw [trim, hleft]
    _ = trim t := trimRight_trimRight (trimLeft t)

theorem trimLeft_of_trim {t : Text} (h : trim t = t) : trimLeft t = t := by
  rw [← h]
  exact trimLeft_of_prefix (isPrefix_trimRight (trimLeft t)) (trimLeft_trimLeft t)

theorem isTight_trim {t : Text} (h : trim t ≠ []) : (trim t).IsTight := ⟨h, trim_trim t⟩

theorem filter_of_blank {p : Char → Bool} (hp : ∀ c, isBlank c = true → p c = false) {t : Text}
    (h : ∀ c ∈ t, isBlank c = true) : t.filter p = [] :=
  List.filter_eq_nil_iff.mpr fun c hc => by simp [hp c (h c hc)]

theorem filter_trimLeft {p : Char → Bool} (hp : ∀ c, isBlank c = true → p c = false) (t : Text) :
    (trimLeft t).filter p = t.filter p := by
  have hnone : (t.takeWhile isBlank).filter p = [] := filter_of_blank hp fun c hc => List.mem_takeWhile_imp hc
  calc (trimLeft t).filter p = (t.takeWhile isBlank ++ trimLeft t).filter p := by
        rw [List.filter_append, hnone, List.nil_append]
    _ = t.filter p := congrArg (List.filter p) List.takeWhile_append_dropWhile

theorem filter_trimRight {p : Char → Bool} (hp : ∀ c, isBlank c = true → p c = false) (t : Text) :
    (trimRight t).filter p = t.filter p := by
  have hnone : (t.rtakeWhile isBlank).filter p = [] := filter_of_blank hp fun c hc => List.mem_rtakeWhile_imp hc
  calc (trimRight t).filter p = (trimRight t ++ t.rtakeWhile isBlank).filter p := by
        rw [List.filter_append, hnone, List.append_nil]
    _ = t.filter p := congrArg (List.filter p) List.rdropWhile_append_rtakeWhile

/-- Trimming only takes blanks away. -/
theorem filter_trim {p : Char → Bool} (hp : ∀ c, isBlank c = true → p c = false) (t : Text) :
    (trim t).filter p = t.filter p := by
  rw [trim, filter_trimRight hp, filter_trimLeft hp]

theorem trimLeft_blank_append {b : Text} (h : ∀ c ∈ b, isBlank c = true) (t : Text) :
    trimLeft (b ++ t) = trimLeft t := List.dropWhile_append_of_pos h

theorem trimRight_append_blank {b : Text} (h : ∀ c ∈ b, isBlank c = true) (t : Text) :
    trimRight (t ++ b) = trimRight t := by
  have hrev : ∀ c ∈ b.reverse, isBlank c = true := fun c hc => h c (List.mem_reverse.mp hc)
  rw [trimRight, List.reverse_append, List.dropWhile_append_of_pos hrev]
  rfl

/-- What stands in front of anything but blanks stays where it is. -/
theorem trimRight_append {t : Text} (h : trimRight t ≠ []) (s : Text) :
    trimRight (s ++ t) = s ++ trimRight t := by
  have hne : (t.reverse.dropWhile isBlank).isEmpty = false := by simpa [trimRight] using h
  rw [trimRight, List.reverse_append, List.dropWhile_append, hne]
  simp [trimRight]

theorem trimRight_eq_self {t : Text} : trimRight t = t ↔ ∀ c ∈ t.getLast?, isBlank c = false := by
  rw [trimRight, ← List.rdropWhile, List.rdropWhile_eq_self_iff]
  cases t using List.reverseRecOn <;> simp

/-- What does not end with a blank stays whole in front of anything. -/
theorem trimRight_append_of_self {s : Text} (h : trimRight s = s) (t : Text) :
    trimRight (s ++ t) = s ++ trimRight t := by
  by_cases ht : trimRight t = []
  · have hblank : ∀ c ∈ t, isBlank c = true := by simpa [trimRight] using ht
    rw [trimRight_append_blank hblank, h, ht, List.append_nil]
  · exact trimRight_append ht s

theorem trim_blank_append {b : Text} (h : ∀ c ∈ b, isBlank c = true) (t : Text) :
    trim (b ++ t) = trim t := by
  rw [trim, trimLeft_blank_append h, trim]

theorem trim_append_blank {b : Text} (h : ∀ c ∈ b, isBlank c = true) (t : Text) :
    trim (t ++ b) = trim t := by
  by_cases ht : trimLeft t = []
  · have hblank : ∀ c ∈ t, isBlank c = true := by simpa [trimLeft] using ht
    rw [trim_blank_append hblank, trim, trim, ht]
    simp [trimLeft, List.dropWhile_eq_nil_iff.mpr h]
  · have hne : (t.dropWhile isBlank).isEmpty = false := by simpa [trimLeft] using ht
    have hleft : trimLeft (t ++ b) = trimLeft t ++ b := by
      rw [trimLeft, List.dropWhile_append, hne]
      rfl
    rw [trim, hleft, trimRight_append_blank h, trim]

/-- The code points of the blanks. -/
def blankPoints : List Nat :=
  [9, 10, 11, 12, 13, 28, 29, 30, 31, 32, 0x85, 0xA0, 0x1680, 0x2000, 0x2001, 0x2002, 0x2003, 0x2004, 0x2005, 0x2006,
    0x2007, 0x2008, 0x2009, 0x200A, 0x2028, 0x2029, 0x202F, 0x205F, 0x3000]

theorem toNat_mem_blankPoints {c : Char} (h : isBlank c = true) : c.toNat ∈ blankPoints := by
  simp only [isBlank, Bool.or_eq_true, Bool.and_eq_true, decide_eq_true_eq] at h
  simp only [blankPoints, List.mem_cons, List.not_mem_nil]
  omega

/-- A range of code points in which all are word characters, or none. -/
def isUniform (lo hi : Nat) (word : Bool) : Bool :=
  Nat.ble 128 lo && if word then wordRange.any fun r => Nat.ble r.1 lo && Nat.ble hi r.2
    else wordRange.all fun r => Nat.blt hi r.1 || Nat.blt r.2 lo

theorem isWord_of_isUniform {lo hi : Nat} {word : Bool} (h : isUniform lo hi word = true) {c : Char}
    (hlo : lo ≤ c.toNat) (hhi : c.toNat ≤ hi) : isWord c = word := by
  simp only [isUniform, Bool.and_eq_true, Nat.ble_eq] at h
  obtain ⟨hascii, hword⟩ := h
  have hhigh : ¬ c.toNat < 128 := by omega
  rw [isWord, if_neg hhigh]
  cases word with
  | true =>
    obtain ⟨r, hr, hcovers⟩ := List.any_eq_true.mp hword
    simp only [Bool.and_eq_true, Nat.ble_eq] at hcovers
    refine List.any_eq_true.mpr ⟨r, hr, ?_⟩
    simp only [Bool.and_eq_true, decide_eq_true_eq]
    omega
  | false =>
    refine List.any_eq_false.mpr fun r hr => ?_
    have hapart := List.all_eq_true.mp hword r hr
    simp only [Bool.or_eq_true, Nat.blt_eq] at hapart
    simp only [Bool.and_eq_true, decide_eq_true_eq]
    omega

theorem isWord_eq_false_of_isBlank {c : Char} (h : isBlank c = true) : isWord c = false := by
  have hascii : ∀ n ∈ blankPoints, n < 128 → isWord (Char.ofNat n) = false := by decide
  have hhigh : ∀ n ∈ blankPoints, n < 128 ∨ isUniform n n false = true := by decide +kernel
  have hmem := toNat_mem_blankPoints h
  rcases hhigh _ hmem with hlow | huniform
  · rw [← Char.ofNat_toNat c]
    exact hascii _ hmem hlow
  · exact isWord_of_isUniform huniform (Nat.le_refl _) (Nat.le_refl _)

theorem isWord_of_small {c : Char} (hc : 'a' ≤ c ∧ c ≤ 'z') : isWord c = true := by
  have hplace : c.toNat ≤ 122 := hc.2
  have hlower : c.isLower = true := Bool.and_eq_true_iff.mpr ⟨decide_eq_true hc.1, decide_eq_true hc.2⟩
  have halpha : c.isAlpha = true := Bool.or_eq_true_iff.mpr (.inr hlower)
  exact isWord_of_isAlphanum (by omega) (Bool.or_eq_true_iff.mpr (.inl halpha))

theorem isBlank_eq_false_of_isWord {c : Char} (h : isWord c = true) : isBlank c = false := by
  by_contra hblank
  rw [isWord_eq_false_of_isBlank (eq_true_of_ne_false hblank)] at h
  cases h

/-- A text with anything but blanks has words. -/
theorem spaced_ne_nil {t : Text} {c : Char} (hc : c ∈ t) (hblank : isBlank c = false) :
    spaced t ≠ [] := by
  obtain ⟨w, hw, hcw⟩ := exists_mem_split hc hblank
  have hmem : w ∈ words t := by
    refine List.mem_filter.mpr ⟨hw, ?_⟩
    simp [List.ne_nil_of_mem hcw]
  unfold spaced
  cases h : words t with
  | nil =>
    rw [h] at hmem
    cases hmem
  | cons v vs =>
    have hv : v ∈ words t := h ▸ List.mem_cons_self
    have hne : v ≠ [] := by simpa using (List.mem_filter.mp hv).2
    exact join_ne_nil hne

end CodeManifest.Text
