import CodeManifest.Proofs.Json.Numeral
import CodeManifest.Proofs.Text.Order
import Mathlib.Tactic.Ring

namespace CodeManifest.Text

open Json (AllDigits)

variable {c d : Char} {s t s' t' : Text} {w m n : Nat}

theorem natOfDigits_append (s t : Text) :
    natOfDigits (s ++ t) = natOfDigits s * 10 ^ t.length + natOfDigits t := by
  induction t using List.reverseRecOn with
  | nil => simp [natOfDigits]
  | append_singleton t c ih =>
    have hlast (u : Text) : natOfDigits (u ++ [c]) = 10 * natOfDigits u + (c.toNat - '0'.toNat) := by
      simp [natOfDigits]
    rw [← List.append_assoc, hlast, hlast, ih, List.length_append, List.length_singleton, Nat.pow_succ]
    ring

theorem natOfDigits_cons (c : Char) (t : Text) :
    natOfDigits (c :: t) = (c.toNat - '0'.toNat) * 10 ^ t.length + natOfDigits t := by
  simpa [natOfDigits] using natOfDigits_append [c] t

theorem isDigit_iff : isDigit c = true ↔ '0'.toNat ≤ c.toNat ∧ c.toNat ≤ '9'.toNat := by
  simp [isDigit, Char.le_def, UInt32.le_iff_toNat_le]

theorem natOfDigits_lt (h : AllDigits t) : natOfDigits t < 10 ^ t.length := by
  induction t with
  | nil => decide
  | cons c t ih =>
    obtain ⟨hc, ht⟩ := List.forall_mem_cons.mp h
    have hdigit : c.toNat - '0'.toNat ≤ 9 := by
      have hrange := isDigit_iff.mp hc
      simp only [Char.reduceToNat] at hrange ⊢
      omega
    have hrest := ih ht
    have hfront := Nat.mul_le_mul_right (10 ^ t.length) hdigit
    rw [natOfDigits_cons, List.length_cons, Nat.pow_succ]
    omega

@[simp] theorem natOfDigits_ofNat (n : Nat) : natOfDigits (ofNat n) = n :=
  Nat.ofDigitChars_toDigits (by omega) (by omega)

@[simp] theorem natOfDigits_zeros (k : Nat) : natOfDigits (List.replicate k '0') = 0 := by
  induction k with
  | zero => rfl
  | succ k ih => simp [List.replicate_succ, natOfDigits_cons, ih]

@[simp] theorem natOfDigits_padded (w n : Nat) : natOfDigits (padded w n) = n := by
  simp [padded, natOfDigits_append]

theorem length_padded (hw : 0 < w) (h : n < 10 ^ w) : (padded w n).length = w := by
  have hlength : (ofNat n).length ≤ w := (Nat.length_toDigits_le_iff (by omega) hw).mpr h
  simp only [padded, List.length_append, List.length_replicate]
  omega

theorem before_cons_cons : Before (c :: s) (d :: t) ↔ c.toNat < d.toNat ∨ c = d ∧ Before s t := by
  by_cases h : c = d
  · simp [Before, le, h]
  · simp [Before, le, h]

theorem before_append (h : s.length = t.length) :
    Before (s ++ s') (t ++ t') ↔ Before s t ∨ s = t ∧ Before s' t' := by
  induction s generalizing t with
  | nil =>
    obtain rfl := List.length_eq_zero_iff.mp h.symm
    simp [Before]
  | cons c s ih =>
    cases t with
    | nil => cases h
    | cons d t =>
      simp only [List.cons_append, before_cons_cons, ih (Nat.succ.inj h), List.cons.injEq]
      tauto

theorem eq_iff_not_before : s = t ↔ ¬ Before s t ∧ ¬ Before t s := by
  constructor
  · rintro rfl
    exact ⟨Before.irrefl s, Before.irrefl s⟩
  · intro ⟨hst, hts⟩
    by_contra hne
    obtain h | h := le_total s t
    · exact hst ⟨h, hne⟩
    · exact hts ⟨h, Ne.symm hne⟩

/-- Of two runs of digits of one length the first digits decide, unless they agree. -/
theorem natOfDigits_cons_lt (hs : AllDigits s) (hc : isDigit c = true) (hlength : s.length = t.length)
    (h : c.toNat < d.toNat) : natOfDigits (c :: s) < natOfDigits (d :: t) := by
  have hrest := natOfDigits_lt hs
  have hstep : c.toNat - '0'.toNat + 1 ≤ d.toNat - '0'.toNat := by
    have hdigit := (isDigit_iff.mp hc).1
    omega
  have hfront := Nat.mul_le_mul_right (10 ^ t.length) hstep
  rw [Nat.add_mul, Nat.one_mul] at hfront
  rw [natOfDigits_cons, natOfDigits_cons]
  rw [hlength] at hrest ⊢
  omega

/-- Runs of digits of one length are in order as the numbers that they stand for. -/
theorem before_digits (hs : AllDigits s) (ht : AllDigits t) (h : s.length = t.length) :
    Before s t ↔ natOfDigits s < natOfDigits t := by
  induction s generalizing t with
  | nil =>
    obtain rfl := List.length_eq_zero_iff.mp h.symm
    simp [Before]
  | cons c s ih =>
    cases t with
    | nil => cases h
    | cons d t =>
      obtain ⟨hc, hs⟩ := List.forall_mem_cons.mp hs
      obtain ⟨hd, ht⟩ := List.forall_mem_cons.mp ht
      have hlength : s.length = t.length := Nat.succ.inj h
      rw [before_cons_cons, ih hs ht hlength]
      obtain hlt | heq | hgt := Nat.lt_trichotomy c.toNat d.toNat
      · simp [hlt, natOfDigits_cons_lt hs hc hlength hlt]
      · obtain rfl := Char.toNat_inj.mp heq
        simp [natOfDigits_cons, hlength]
      · have hne : c ≠ d := by
          rintro rfl
          omega
        have hback := natOfDigits_cons_lt ht hd hlength.symm hgt
        simp only [hne, false_and, or_false]
        omega

theorem before_padded_append (hw : 0 < w) (hm : m < 10 ^ w) (hn : n < 10 ^ w) :
    Before (padded w m ++ s) (padded w n ++ t) ↔ m < n ∨ m = n ∧ Before s t := by
  have hlength : (padded w m).length = (padded w n).length := by
    rw [length_padded hw hm, length_padded hw hn]
  have heq : padded w m = padded w n ↔ m = n := by
    constructor
    · intro h
      rw [← natOfDigits_padded w m, h, natOfDigits_padded]
    · intro h
      rw [h]
  rw [before_append hlength, before_digits (Json.allDigits_padded w m) (Json.allDigits_padded w n) hlength, heq,
    natOfDigits_padded, natOfDigits_padded]

end CodeManifest.Text
