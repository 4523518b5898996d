import CodeManifest.Calendar
import Mathlib.Tactic.Common
import Mathlib.Tactic.IntervalCases

namespace CodeManifest.Date

variable {d e : Date} {y : Int} {m n k l : Nat}

/-- The days from March of year 0 to March of a year. -/
def yearStart (y : Int) : Int := 365 * y + y / 4 - y / 100 + y / 400

/-- The count of days without the cycles of four hundred years. -/
theorem toDays_eq (d : Date) {y : Int} (hy : y = if d.month ≤ 2 then d.year - 1 else d.year) :
    d.toDays = yearStart y + (153 * (((d.month + 9) % 12 : Nat) : Int) + 2) / 5 + d.day - 719469 := by
  have hera : y.fdiv 400 = y / 400 := Int.fdiv_eq_ediv_of_nonneg y (by omega)
  unfold toDays yearStart
  rw [← hy]
  simp only [hera]
  -- a cycle has 400 * 365 + 100 - 4 + 1 days
  omega

theorem toDays_day (y : Int) (m n : Nat) : toDays ⟨y, m, n⟩ = toDays ⟨y, m, 1⟩ + n - 1 := by
  rw [toDays_eq ⟨y, m, n⟩ rfl, toDays_eq ⟨y, m, 1⟩ rfl]
  dsimp only
  omega

theorem isLeap_iff : isLeap y = true ↔ y % 4 = 0 ∧ (y % 100 ≠ 0 ∨ y % 400 = 0) := by
  simp [isLeap]

theorem toDays_next_month (h : 1 ≤ m) (h' : m < 12) :
    toDays ⟨y, m + 1, 1⟩ = toDays ⟨y, m, 1⟩ + daysIn y m := by
  rw [toDays_eq ⟨y, m + 1, 1⟩ rfl, toDays_eq ⟨y, m, 1⟩ rfl]
  by_cases hfebruary : m = 2
  -- years change behind February here, and bring the leap day
  · subst hfebruary
    have hleap := isLeap_iff (y := y)
    cases hy : isLeap y
    · simp only [hy, Bool.false_eq_true, false_iff] at hleap
      simp [daysIn, hy, yearStart]
      omega
    · simp only [hy, true_iff] at hleap
      simp [daysIn, hy, yearStart]
      omega
  · have hdays : daysIn y m = if [4, 6, 9, 11].contains m then 30 else 31 := if_neg hfebruary
    rw [hdays]
    interval_cases m <;> simp at hfebruary ⊢ <;> omega

theorem toDays_next_year : toDays ⟨y + 1, 1, 1⟩ = toDays ⟨y, 12, 1⟩ + daysIn y 12 := by
  rw [toDays_eq ⟨y + 1, 1, 1⟩ rfl, toDays_eq ⟨y, 12, 1⟩ rfl]
  simp [daysIn]
  omega

/-- The first day of a month. Months are counted from the first of year 1 here. -/
def first (k : Nat) : Date := ⟨k / 12 + 1, k % 12 + 1, 1⟩

def before : Nat → Nat
  | 0 => 0
  | k + 1 => before k + daysIn (first k).year (first k).month

/-- How many months there are from the first of year 1 to that of a date. -/
def monthsTo (d : Date) : Nat := 12 * (d.year.toNat - 1) + (d.month - 1)

/-- The days from the beginning of year 1 to a date. -/
def counted (d : Date) : Nat := before (monthsTo d) + (d.day - 1)

theorem toDays_first (k : Nat) : (first k).toDays = before k - 719162 := by
  induction k with
  | zero => rfl
  | succ k ih =>
    have hstep : (first (k + 1)).toDays = (first k).toDays + daysIn (first k).year (first k).month := by
      by_cases hlast : k % 12 = 11
      · have hyear : ((k : Int) + 1) / 12 = k / 12 + 1 := by omega
        have hmonth : (k + 1) % 12 = 0 := by omega
        simpa [first, hlast, hyear, hmonth] using toDays_next_year (y := k / 12 + 1)
      · have hyear : ((k : Int) + 1) / 12 = k / 12 := by omega
        have hmonth : (k + 1) % 12 = k % 12 + 1 := by omega
        simpa [first, hyear, hmonth] using
          toDays_next_month (y := k / 12 + 1) (show 1 ≤ k % 12 + 1 by omega) (by omega)
    rw [hstep, ih, before]
    omega

/-- A date of the calendar, with a year of at most four digits. -/
structure Sound (d : Date) : Prop where
  year : 1 ≤ d.year ∧ d.year ≤ 9999
  month : 1 ≤ d.month ∧ d.month ≤ 12
  day : 1 ≤ d.day ∧ d.day ≤ daysIn d.year d.month

theorem isValid_iff : d.isValid = true ↔ d.Sound := by
  simp only [isValid, Bool.and_eq_true, decide_eq_true_eq]
  constructor
  · rintro ⟨⟨⟨⟨⟨hy, hy'⟩, hm⟩, hm'⟩, hd⟩, hd'⟩
    exact ⟨⟨hy, hy'⟩, ⟨hm, hm'⟩, ⟨hd, hd'⟩⟩
  · rintro ⟨⟨hy, hy'⟩, ⟨hm, hm'⟩, ⟨hd, hd'⟩⟩
    exact ⟨⟨⟨⟨⟨hy, hy'⟩, hm⟩, hm'⟩, hd⟩, hd'⟩

namespace Sound

theorem first_monthsTo (h : d.Sound) : first (monthsTo d) = ⟨d.year, d.month, 1⟩ := by
  obtain ⟨⟨hy, -⟩, ⟨hm, hm'⟩, -⟩ := h
  simp only [first, monthsTo, Date.mk.injEq, and_true]
  omega

theorem toDays_eq_counted (h : d.Sound) : d.toDays = counted d - 719162 := by
  have hmonth := toDays_first (monthsTo d)
  have hday := toDays_day d.year d.month d.day
  have hone := h.day.1
  rw [h.first_monthsTo] at hmonth
  rw [hmonth] at hday
  rw [hday, counted]
  omega

end Sound

/-- Is the first date in front of the second, when years count before months and these before days? -/
def Earlier (d e : Date) : Prop :=
  d.year < e.year ∨ d.year = e.year ∧ (d.month < e.month ∨ d.month = e.month ∧ d.day < e.day)

theorem before_mono (h : k ≤ l) : before k ≤ before l := by
  induction h with
  | refl => exact le_refl _
  | step _ ih => exact Nat.le_trans ih (Nat.le_add_right _ _)

theorem Sound.counted_lt (hd : d.Sound) (he : e.Sound) (h : d.Earlier e) : counted d < counted e := by
  obtain hmonths | ⟨hmonths, hday⟩ : monthsTo d < monthsTo e ∨ monthsTo d = monthsTo e ∧ d.day < e.day := by
    have hyear := hd.year
    have hmonth := hd.month
    have hmonth' := he.month
    unfold Earlier at h
    unfold monthsTo
    omega
  -- a later month begins after all days of an earlier one
  · have hnext : before (monthsTo d) + daysIn d.year d.month ≤ before (monthsTo e) := by
      have hmono := before_mono (show monthsTo d + 1 ≤ monthsTo e from hmonths)
      rwa [before, hd.first_monthsTo] at hmono
    have hday := hd.day
    unfold counted
    omega
  · have hone := hd.day.1
    rw [counted, counted, hmonths]
    omega

theorem earlier_trichotomy (d e : Date) : d.Earlier e ∨ d = e ∨ e.Earlier d := by
  obtain ⟨y, m, n⟩ := d
  obtain ⟨y', m', n'⟩ := e
  simp only [Earlier, Date.mk.injEq]
  omega

/-- The day of a year that begins in March, where day `n` of a cycle of four hundred years lies in year `y`.
The last one of all is there in leap years only. -/
theorem dayOfYear_bounds {n y : Int} (h : 0 ≤ n) (h' : n < 146097)
    (hy : y = (n - n / 1460 + n / 36524 - n / 146096) / 365) :
    0 ≤ n - (365 * y + y / 4 - y / 100) ∧ n - (365 * y + y / 4 - y / 100) ≤ 365 ∧
      (n - (365 * y + y / 4 - y / 100) = 365 → y % 4 = 3 ∧ (y % 100 ≠ 99 ∨ y = 399)) := by
  by_cases hlast : n = 146096
  · subst hlast hy
    decide
  -- within a century leap days come every four years
  · have hcentury : n / 36524 = 0 ∨ n / 36524 = 1 ∨ n / 36524 = 2 ∨ n / 36524 = 3 := by omega
    have hcycle : n / 146096 = 0 := by omega
    rw [hcycle] at hy
    have hsame : y / 100 = n / 36524 := by
      obtain hc | hc | hc | hc := hcentury <;> omega
    have hleaps : 1460 * (y / 4) ≤ n := by
      obtain hc | hc | hc | hc := hcentury <;> omega
    omega

/-- The date of day `n` of year `y`, where years begin in March. -/
def ofYearDay (y n : Int) : Date :=
  let month := (5 * n + 2) / 153
  let m := if month < 10 then month + 3 else month - 9
  ⟨if m ≤ 2 then y + 1 else y, m.toNat, (n - (153 * month + 2) / 5 + 1).toNat⟩

/-- Every day is one of a year that begins in March. -/
theorem exists_yearDay (days : Int) : ∃ y n : Int,
    days = yearStart y + n - 719468 ∧ 0 ≤ n ∧ n ≤ 365 ∧
      (n = 365 → isLeap (y + 1) = true) ∧ ofDays days = ofYearDay y n := by
  have hera : (days + 719468).fdiv 146097 = (days + 719468) / 146097 := Int.fdiv_eq_ediv_of_nonneg _ (by omega)
  unfold ofDays
  simp only [hera]
  generalize hcycle : (days + 719468) / 146097 = era
  generalize hday : days + 719468 - era * 146097 = n
  generalize hyear : (n - n / 1460 + n / 36524 - n / 146096) / 365 = y
  have hn : 0 ≤ n ∧ n < 146097 := by omega
  have hy : 0 ≤ y ∧ y < 400 := by omega
  obtain ⟨h, h', hlast⟩ := dayOfYear_bounds hn.1 hn.2 hyear.symm
  refine ⟨y + era * 400, n - (365 * y + y / 4 - y / 100), ?_, h, h', ?_, rfl⟩
  · have hfour : (y + era * 400) / 4 = y / 4 + era * 100 := by omega
    have hcentury : (y + era * 400) / 100 = y / 100 + era * 4 := by omega
    have hall : (y + era * 400) / 400 = era := by omega
    rw [yearStart, hfour, hcentury, hall]
    omega
  · intro heq
    have hleap := hlast heq
    rw [isLeap_iff]
    omega

theorem toDays_ofYearDay {n : Int} (h : 0 ≤ n) (h' : n ≤ 365) :
    (ofYearDay y n).toDays = yearStart y + n - 719468 := by
  have hmonth : 0 ≤ (5 * n + 2) / 153 ∧ (5 * n + 2) / 153 ≤ 11 := by omega
  unfold ofYearDay
  generalize hm : (5 * n + 2) / 153 = m at hmonth ⊢
  obtain ⟨hlow, hhigh⟩ := hmonth
  rw [toDays_eq _ rfl]
  interval_cases m <;> simp <;> omega

theorem ofYearDay_month {n : Int} (h : 0 ≤ n) (h' : n ≤ 365) (hlast : n = 365 → isLeap (y + 1) = true) :
    let d := ofYearDay y n
    (1 ≤ d.month ∧ d.month ≤ 12) ∧ 1 ≤ d.day ∧ d.day ≤ daysIn d.year d.month := by
  have hmonth : 0 ≤ (5 * n + 2) / 153 ∧ (5 * n + 2) / 153 ≤ 11 := by omega
  unfold ofYearDay
  generalize hm : (5 * n + 2) / 153 = m at hmonth ⊢
  obtain ⟨hlow, hhigh⟩ := hmonth
  by_cases hfebruary : m = 11
  · subst hfebruary
    have hdays : daysIn (y + 1) 2 = if isLeap (y + 1) then 29 else 28 := rfl
    cases hy : isLeap (y + 1)
    · have hn : n ≠ 365 := fun heq => by simp [hlast heq] at hy
      simp [hdays, hy]
      omega
    · simp [hdays, hy]
      omega
  · interval_cases m <;> simp [daysIn] at hfebruary ⊢ <;> omega

@[simp] theorem toDays_ofDays (days : Int) : (ofDays days).toDays = days := by
  obtain ⟨y, n, hdays, h, h', -, hdate⟩ := exists_yearDay days
  rw [hdate, toDays_ofYearDay h h', hdays]

/-- The date of a day is one of the calendar, unless its year is out of range. -/
theorem sound_ofDays {days : Int} (h : 1 ≤ (ofDays days).year) (h' : (ofDays days).year ≤ 9999) :
    (ofDays days).Sound := by
  obtain ⟨y, n, -, hn, hn', hlast, hdate⟩ := exists_yearDay days
  have hmonth := ofYearDay_month hn hn' hlast
  rw [← hdate] at hmonth
  exact ⟨⟨h, h'⟩, hmonth.1, hmonth.2⟩

theorem ofDays_injective {i j : Int} (h : ofDays i = ofDays j) : i = j := by
  rw [← toDays_ofDays i, h, toDays_ofDays]

/-- Days are in order as their dates are. -/
theorem ofDays_earlier_iff {i j : Int} (hi : (ofDays i).Sound) (hj : (ofDays j).Sound) :
    (ofDays i).Earlier (ofDays j) ↔ i < j := by
  have hcount (i : Int) (h : (ofDays i).Sound) : i = counted (ofDays i) - 719162 := by
    rw [← h.toDays_eq_counted, toDays_ofDays]
  have hi' := hcount i hi
  have hj' := hcount j hj
  constructor
  · intro h
    have hlt := hi.counted_lt hj h
    omega
  · intro h
    obtain hearlier | heq | hlater := earlier_trichotomy (ofDays i) (ofDays j)
    · exact hearlier
    · have hsame := ofDays_injective heq
      omega
    · have hlt := hj.counted_lt hi hlater
      omega

end CodeManifest.Date
