import CodeManifest.Files.Path
import CodeManifest.Text.Order
import Mathlib.Tactic.Common

namespace CodeManifest

namespace Text

variable {s t u : Text}

theorem le_antisymm (h : le s t = true) (h' : le t s = true) : s = t := by
  induction s generalizing t with
  | nil =>
    cases t with
    | nil => rfl
    | cons d t => cases h'
  | cons c s ih =>
    cases t with
    | nil => cases h
    | cons d t =>
      by_cases hc : c = d
      · subst hc
        simp only [le, if_true] at h h'
        rw [ih h h']
      · simp only [le, if_neg hc, if_neg (Ne.symm hc), decide_eq_true_eq] at h h'
        omega

theorem le_trans (h : le s t = true) (h' : le t u = true) : le s u = true := by
  induction s generalizing t u with
  | nil => rfl
  | cons c s ih =>
    cases t with
    | nil => cases h
    | cons d t =>
      cases u with
      | nil => cases h'
      | cons x u =>
        by_cases hc : c = d
        · subst hc
          by_cases hd : c = x
          · subst hd
            simp only [le, if_true] at h h' ⊢
            exact ih h h'
          · simpa only [le, if_neg hd] using h'
        · simp only [le, if_neg hc, decide_eq_true_eq] at h
          by_cases hd : d = x
          · subst hd
            simpa only [le, if_neg hc, decide_eq_true_eq] using h
          · simp only [le, if_neg hd, decide_eq_true_eq] at h'
            have hcx : c ≠ x := by
              rintro rfl
              omega
            simp only [le, if_neg hcx, decide_eq_true_eq]
            omega

theorem le_total (s t : Text) : le s t = true ∨ le t s = true := by
  induction s generalizing t with
  | nil => exact Or.inl rfl
  | cons c s ih =>
    cases t with
    | nil => exact Or.inr rfl
    | cons d t =>
      by_cases hc : c = d
      · subst hc
        simpa only [le, if_true] using ih t
      · have hne : c.toNat ≠ d.toNat := fun h => hc (Char.toNat_inj.mp h)
        simp only [le, if_neg hc, if_neg (Ne.symm hc), decide_eq_true_eq]
        omega

@[simp] theorem mem_sorted {ts : List Text} : t ∈ sorted ts ↔ t ∈ ts := by
  simp [sorted]

/-- Is the first text in front of the second? -/
def Before (s t : Text) : Prop := le s t = true ∧ s ≠ t

theorem Before.irrefl (t : Text) : ¬ Before t t := fun h => h.2 rfl

end Text

namespace Path

open le (leAll)

variable {as bs cs : List Text}

theorem leAll_trans (h : leAll as bs = true) (h' : leAll bs cs = true) : leAll as cs = true := by
  induction as generalizing bs cs with
  | nil => rfl
  | cons a as ih =>
    cases bs with
    | nil => cases h
    | cons b bs =>
      cases cs with
      | nil => cases h'
      | cons c cs =>
        by_cases hab : a = b
        · subst hab
          by_cases hbc : a = c
          · subst hbc
            simp only [leAll, if_true] at h h' ⊢
            exact ih h h'
          · simpa only [leAll, if_neg hbc] using h'
        · simp only [leAll, if_neg hab] at h
          by_cases hbc : b = c
          · subst hbc
            simpa only [leAll, if_neg hab] using h
          · simp only [leAll, if_neg hbc] at h'
            have hac : a ≠ c := by
              rintro rfl
              exact hab (Text.le_antisymm h h')
            simpa only [leAll, if_neg hac] using Text.le_trans h h'

theorem leAll_antisymm (h : leAll as bs = true) (h' : leAll bs as = true) : as = bs := by
  induction as generalizing bs with
  | nil =>
    cases bs with
    | nil => rfl
    | cons b bs => cases h'
  | cons a as ih =>
    cases bs with
    | nil => cases h
    | cons b bs =>
      by_cases hab : a = b
      · subst hab
        simp only [leAll, if_true] at h h'
        rw [ih h h']
      · simp only [leAll, if_neg hab, if_neg (Ne.symm hab)] at h h'
        exact absurd (Text.le_antisymm h h') hab

theorem leAll_total (as bs : List Text) : leAll as bs = true ∨ leAll bs as = true := by
  induction as generalizing bs with
  | nil => exact Or.inl rfl
  | cons a as ih =>
    cases bs with
    | nil => exact Or.inr rfl
    | cons b bs =>
      by_cases hab : a = b
      · subst hab
        simpa only [leAll, if_true] using ih bs
      · simpa only [leAll, if_neg hab, if_neg (Ne.symm hab)] using Text.le_total a b

/-- Is the first path in front of the second? -/
def Before (p q : Path) : Prop := p.le q = true ∧ p ≠ q

/-- The same paths are sorted in the same way. -/
theorem eq_of_before {ps qs : List Path} (hperm : ps.Perm qs) (hp : ps.Pairwise Before) (hq : qs.Pairwise Before) :
    ps = qs := by
  refine hperm.eq_of_pairwise (fun p q _ _ hpq hqp => ?_) hp hq
  obtain ⟨p, ns⟩ := p
  obtain ⟨q, ms⟩ := q
  obtain ⟨rfl, rfl⟩ : p = q ∧ ns = ms := by simpa using leAll_antisymm hpq.1 hqp.1
  rfl

/-- Distinct paths that are sorted stand one before the other. -/
theorem pairwise_mergeSort {ps : List Path} (h : ps.Nodup) : (ps.mergeSort le).Pairwise Before := by
  have htrans (p q r : Path) (hpq : p.le q = true) (hqr : q.le r = true) : p.le r = true :=
    leAll_trans hpq hqr
  have htotal (p q : Path) : (p.le q || q.le p) = true :=
    (Bool.or_eq_true _ _).mpr (leAll_total (p.root :: p.parts) (q.root :: q.parts))
  have hle : (ps.mergeSort le).Pairwise fun p q => p.le q = true := List.pairwise_mergeSort htrans htotal ps
  have hne : (ps.mergeSort le).Nodup := (List.mergeSort_perm ps le).nodup_iff.mpr h
  exact hle.and hne

end Path

end CodeManifest
