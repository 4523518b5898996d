import CodeManifest.Proofs.Calendar
import CodeManifest.Proofs.Text.Padded
import Mathlib.Data.List.Forall2

namespace CodeManifest

namespace Text

variable {f g s t : Text} {w n : Nat}

/-- Is a text of this form? A zero stands for any digit, everything else for itself. -/
def Fits (form t : Text) : Prop := List.Forall₂ (fun f c => if f = '0' then isDigit c = true else c = f) form t

namespace Fits

theorem append (h : Fits f s) (h' : Fits g t) : Fits (f ++ g) (s ++ t) := List.rel_append h h'

theorem mark {c : Char} (hc : c ≠ '0') (h : Fits f t) : Fits (c :: f) (c :: t) := .cons (by simp [hc]) h

end Fits

theorem fits_digits (h : Json.AllDigits t) : Fits (List.replicate t.length '0') t := by
  induction t with
  | nil => exact List.Forall₂.nil
  | cons c t ih =>
    obtain ⟨hc, ht⟩ := List.forall_mem_cons.mp h
    exact List.Forall₂.cons hc (ih ht)

theorem fits_padded (hw : 0 < w) (h : n < 10 ^ w) : Fits (List.replicate w '0') (padded w n) := by
  have hfits := fits_digits (Json.allDigits_padded w n)
  rwa [length_padded hw h] at hfits

end Text

namespace Date

open Text

variable {d e : Date} {f s t : Text}

theorem daysIn_le (y : Int) (m : Nat) : daysIn y m ≤ 31 := by
  unfold daysIn
  split
  · split <;> omega
  · split <;> omega

theorem Sound.small (h : d.Sound) : d.year.toNat < 10 ^ 4 ∧ d.month < 10 ^ 2 ∧ d.day < 10 ^ 2 := by
  have hyear := h.year
  have hmonth := h.month
  have hday := h.day
  have hmost := daysIn_le d.year d.month
  omega

theorem render_append (d : Date) (t : Text) :
    d.render ++ t = padded 4 d.year.toNat ++ '-' :: (padded 2 d.month ++ '-' :: (padded 2 d.day ++ t)) := by
  simp [render]

theorem Sound.fits_render_append (h : d.Sound) (ht : Fits f t) : Fits ("0000-00-00".toList ++ f) (d.render ++ t) := by
  obtain ⟨hyear, hmonth, hday⟩ := h.small
  have hfits := (fits_padded (by omega) hyear).append <| .mark (show '-' ≠ '0' by decide) <|
    (fits_padded (by omega) hmonth).append <| .mark (show '-' ≠ '0' by decide) <|
    (fits_padded (by omega) hday).append ht
  rwa [← d.render_append] at hfits

theorem Sound.before_render_append (hd : d.Sound) (he : e.Sound) :
    Before (d.render ++ s) (e.render ++ t) ↔ d.Earlier e ∨ d = e ∧ Before s t := by
  obtain ⟨hyear, hmonth, hday⟩ := hd.small
  obtain ⟨hyear', hmonth', hday'⟩ := he.small
  have hpos := hd.year.1
  have hpos' := he.year.1
  have hdash : ¬ '-'.toNat < '-'.toNat := Nat.lt_irrefl _
  simp only [render_append, before_cons_cons, before_padded_append (by omega : 0 < 4) hyear hyear',
    before_padded_append (by omega : 0 < 2) hmonth hmonth', before_padded_append (by omega : 0 < 2) hday hday',
    hdash, false_or, true_and]
  obtain ⟨y, m, n⟩ := d
  obtain ⟨y', m', n'⟩ := e
  simp only [Earlier, Date.mk.injEq] at hpos hpos' ⊢
  -- years are written as natural numbers and compared as integers
  generalize Before s t = behind
  have hsame : y.toNat = y'.toNat ↔ y = y' := by omega
  have hless : y.toNat < y'.toNat ↔ y < y' := by omega
  rw [hsame, hless]
  simp only [and_or_left, or_assoc, and_assoc]

end Date

namespace Instant

open Text

variable {i j : Instant} {w n : Nat}

/-- Is the year one of four digits in universal time? -/
def InYears (i : Instant) : Prop := 1 ≤ i.utc.date.year ∧ i.utc.date.year ≤ 9999

theorem utc_date (i : Instant) : i.utc.date = .ofDays (i.micros / dayMicros) := by
  simp [date, utc, clock, Int.fdiv_eq_ediv_of_nonneg _ (show 0 ≤ dayMicros by decide)]

theorem utc_ofDay (i : Instant) : (i.utc.ofDay : Int) = i.micros - i.micros / dayMicros * dayMicros := by
  have hday : i.micros.fdiv dayMicros = i.micros / dayMicros := Int.fdiv_eq_ediv_of_nonneg _ (by decide)
  simp only [ofDay, utc, clock, hday, Int.zero_mul, Int.add_zero]
  unfold dayMicros
  omega

theorem ofDay_lt (i : Instant) : i.utc.ofDay < 86400000000 := by
  have hday := i.utc_ofDay
  unfold dayMicros at hday
  omega

theorem InYears.sound (h : i.InYears) : i.utc.date.Sound := by
  have hdate := i.utc_date
  unfold InYears at h
  rw [hdate] at h ⊢
  exact Date.sound_ofDays h.1 h.2

theorem digits?_padded (hw : 0 < w) (h : n < 10 ^ w) (t : Text) : digits? w (padded w n ++ t) = some (n, t) := by
  have hlength := length_padded hw h
  have hall : (padded w n).all isDigit = true := List.all_eq_true.mpr (Json.allDigits_padded w n)
  simp [digits?, List.take_left' hlength, List.drop_left' hlength, hlength, hall]

theorem fraction_padded (h : n < 10 ^ 3) : fraction ('.' :: (padded 3 n ++ ['Z'])) = (n * 1000, ['Z']) := by
  have hdigits := Json.allDigits_padded 3 n
  have hlength := length_padded (by omega) h
  have hfront : (padded 3 n ++ ['Z']).takeWhile isDigit = padded 3 n := by
    rw [List.takeWhile_append_of_pos hdigits]
    simp [show isDigit 'Z' = false by decide]
  have hback : (padded 3 n ++ ['Z']).dropWhile isDigit = ['Z'] := by
    rw [List.dropWhile_append_of_pos hdigits]
    simp [show isDigit 'Z' = false by decide]
  have hvalue : natOfDigits (padded 3 n ++ List.replicate 3 '0') = n * 1000 := by
    rw [natOfDigits_append, natOfDigits_padded, natOfDigits_zeros, List.length_replicate]
    omega
  simp only [fraction, hfront, hback, hlength]
  rw [List.take_of_length_le (by omega), hvalue]

/-- What is written with fixed widths in universal time is read. -/
theorem read?_fields {y m d hour minute second milli : Nat} (hy : y < 10 ^ 4) (hm : m < 10 ^ 2) (hd : d < 10 ^ 2)
    (hhour : hour < 10 ^ 2) (hminute : minute < 10 ^ 2) (hsecond : second < 10 ^ 2) (hmilli : milli < 10 ^ 3) :
    read? (padded 4 y ++ '-' :: (padded 2 m ++ '-' :: (padded 2 d ++ 'T' :: (padded 2 hour ++ ':' :: (padded 2 minute ++
      ':' :: (padded 2 second ++ '.' :: (padded 3 milli ++ ['Z']))))))) =
      some (ofClock ⟨y, m, d⟩ hour minute second (milli * 1000) 0) := by
  have hdash (t : Text) : dropStart? "-" ('-' :: t) = some t := rfl
  have hmiddle (t : Text) : dropStart? "T" ('T' :: t) = some t := rfl
  have hcolon (t : Text) : dropStart? ":" (':' :: t) = some t := rfl
  have hpair (n : Nat) (h : n < 10 ^ 2) (t : Text) : digits? 2 (padded 2 n ++ t) = some (n, t) :=
    digits?_padded (by omega) h t
  have hfour (t : Text) : digits? 4 (padded 4 y ++ t) = some (y, t) := digits?_padded (by omega) hy t
  unfold read?
  refine Option.bind_eq_some_iff.mpr ⟨_, hfour _, ?_⟩
  refine Option.bind_eq_some_iff.mpr ⟨_, hdash _, ?_⟩
  refine Option.bind_eq_some_iff.mpr ⟨_, hpair m hm _, ?_⟩
  refine Option.bind_eq_some_iff.mpr ⟨_, hdash _, ?_⟩
  refine Option.bind_eq_some_iff.mpr ⟨_, hpair d hd _, ?_⟩
  refine Option.bind_eq_some_iff.mpr ⟨_, hmiddle _, ?_⟩
  refine Option.bind_eq_some_iff.mpr ⟨_, hpair hour hhour _, ?_⟩
  refine Option.bind_eq_some_iff.mpr ⟨_, hcolon _, ?_⟩
  refine Option.bind_eq_some_iff.mpr ⟨_, hpair minute hminute _, ?_⟩
  refine Option.bind_eq_some_iff.mpr ⟨_, hcolon _, ?_⟩
  refine Option.bind_eq_some_iff.mpr ⟨_, hpair second hsecond _, ?_⟩
  dsimp only
  rw [fraction_padded hmilli]
  rfl

/-- The same point in time in universal time, without what is finer than a millisecond. -/
def truncated (i : Instant) : Instant := ⟨i.micros / 1000 * 1000, 0⟩

theorem ofClock_utc (i : Instant) :
    ofClock i.utc.date i.utc.hour i.utc.minute i.utc.second (i.utc.microsecond / 1000 * 1000) 0 = i.truncated := by
  have hday := i.utc_ofDay
  simp only [ofClock, utc_date, Date.toDays_ofDays, truncated, Instant.mk.injEq, and_true]
  unfold hour minute second microsecond dayMicros at *
  omega

theorem renderUtc_eq (i : Instant) :
    i.renderUtc = i.utc.date.render ++ 'T' :: (padded 2 i.utc.hour ++ ':' :: (padded 2 i.utc.minute ++
      ':' :: (padded 2 i.utc.second ++ '.' :: (padded 3 (i.utc.microsecond / 1000) ++ ['Z'])))) := by
  simp [renderUtc, renderTime]

theorem utc_small (i : Instant) :
    i.utc.hour < 10 ^ 2 ∧ i.utc.minute < 10 ^ 2 ∧ i.utc.second < 10 ^ 2 ∧ i.utc.microsecond / 1000 < 10 ^ 3 := by
  have hlt := i.ofDay_lt
  unfold hour minute second microsecond
  omega

/-- A timestamp is read back as the point in time that it was made from, up to the millisecond. -/
theorem read?_renderUtc (h : i.InYears) : read? i.renderUtc = some i.truncated := by
  obtain ⟨hyear, hmonth, hday⟩ := h.sound.small
  obtain ⟨hhour, hminute, hsecond, hmilli⟩ := i.utc_small
  have hdate : (⟨i.utc.date.year.toNat, i.utc.date.month, i.utc.date.day⟩ : Date) = i.utc.date := by
    have hpos := h.sound.year.1
    simp [Int.toNat_of_nonneg (Int.le_trans (by decide) hpos)]
  rw [renderUtc_eq, Date.render_append, read?_fields hyear hmonth hday hhour hminute hsecond hmilli, hdate, ofClock_utc]

theorem fits_renderUtc (h : i.InYears) : Fits "0000-00-00T00:00:00.000Z".toList i.renderUtc := by
  obtain ⟨hhour, hminute, hsecond, hmilli⟩ := i.utc_small
  have hend : Fits "Z".toList ['Z'] := .mark (by decide) .nil
  have htime := (fits_padded (by omega) hhour).append <| .mark (show ':' ≠ '0' by decide) <|
    (fits_padded (by omega) hminute).append <| .mark (show ':' ≠ '0' by decide) <|
    (fits_padded (by omega) hsecond).append <| .mark (show '.' ≠ '0' by decide) <|
    (fits_padded (by omega) hmilli).append hend
  rw [renderUtc_eq]
  exact h.sound.fits_render_append (.mark (show 'T' ≠ '0' by decide) htime)

/-- Times of day are in order as hours, minutes, seconds and milliseconds are, one after the other. -/
theorem ofDay_lt_iff (i j : Instant) :
    (i.hour < j.hour ∨ i.hour = j.hour ∧ (i.minute < j.minute ∨ i.minute = j.minute ∧
      (i.second < j.second ∨ i.second = j.second ∧ i.microsecond / 1000 < j.microsecond / 1000))) ↔
      i.ofDay / 1000 < j.ofDay / 1000 := by
  unfold hour minute second microsecond
  omega

/-- Timestamps are in order as the points in time are that they stand for. -/
theorem before_renderUtc_iff (hi : i.InYears) (hj : j.InYears) :
    Before i.renderUtc j.renderUtc ↔ i.micros / 1000 < j.micros / 1000 := by
  obtain ⟨hhour, hminute, hsecond, hmilli⟩ := i.utc_small
  obtain ⟨hhour', hminute', hsecond', hmilli'⟩ := j.utc_small
  have hdays : i.utc.date.Earlier j.utc.date ↔ i.micros / dayMicros < j.micros / dayMicros := by
    rw [utc_date, utc_date]
    exact Date.ofDays_earlier_iff (utc_date i ▸ hi.sound) (utc_date j ▸ hj.sound)
  have hsame : i.utc.date = j.utc.date ↔ i.micros / dayMicros = j.micros / dayMicros := by
    rw [utc_date, utc_date]
    exact ⟨Date.ofDays_injective, congrArg Date.ofDays⟩
  have hmark (c : Char) : ¬ c.toNat < c.toNat := Nat.lt_irrefl _
  rw [renderUtc_eq, renderUtc_eq, hi.sound.before_render_append hj.sound, hdays, hsame]
  simp only [before_cons_cons, before_padded_append (show 0 < 2 by omega) hhour hhour',
    before_padded_append (show 0 < 2 by omega) hminute hminute',
    before_padded_append (show 0 < 2 by omega) hsecond hsecond',
    before_padded_append (show 0 < 3 by omega) hmilli hmilli', hmark, false_or, true_and, Before.irrefl, and_false, or_false,
    ofDay_lt_iff]
  have hday := i.utc_ofDay
  have hday' := j.utc_ofDay
  unfold dayMicros at *
  omega

theorem renderUtc_eq_iff (hi : i.InYears) (hj : j.InYears) :
    i.renderUtc = j.renderUtc ↔ i.micros / 1000 = j.micros / 1000 := by
  rw [eq_iff_not_before, before_renderUtc_iff hi hj, before_renderUtc_iff hj hi]
  omega

end Instant

/-- A date and a time of day on a clock that goes `offset` microseconds before universal time. -/
structure Datetime where
  date : Date
  hour : Nat
  minute : Nat
  second : Nat
  micro : Nat
  offset : Int
  isValid : date.isValid = true
  hour_lt : hour < 24
  minute_lt : minute < 60
  second_lt : second < 60
  micro_lt : micro < 1000000
  offset_lt : offset.natAbs < 86400000000

namespace Datetime

open Text

/-- The microseconds from the beginning of year 1 in universal time, with the days counted month by month. -/
def elapsed (t : Datetime) : Int :=
  ((((t.date.counted * 24 + t.hour) * 60 + t.minute) * 60 + t.second) * 1000000 + t.micro : Nat) - t.offset

/-- The same in the year 1970. -/
def epoch : Int := 719162 * 86400000000

/-- The point in time. Its offset leaves out what is finer than a second. -/
def instant (t : Datetime) : Instant :=
  ⟨(Instant.ofClock t.date t.hour t.minute t.second t.micro 0).micros - t.offset, t.offset / 1000000⟩

theorem instant_micros (t : Datetime) : t.instant.micros = t.elapsed - epoch := by
  have hdays := (Date.isValid_iff.mp t.isValid).toDays_eq_counted
  simp only [instant, Instant.ofClock, hdays, elapsed, epoch, Instant.dayMicros]
  omega

/-- Whatever the offsets are, timestamps denote points in time up to the millisecond, and are in order as these are. -/
theorem renderUtc_denotes (a b : Datetime) (ha : a.instant.InYears) (hb : b.instant.InYears) :
    Fits "0000-00-00T00:00:00.000Z".toList a.instant.renderUtc ∧
      Instant.read? a.instant.renderUtc = some ⟨a.elapsed / 1000 * 1000 - epoch, 0⟩ ∧
      (a.instant.renderUtc = b.instant.renderUtc ↔ a.elapsed / 1000 = b.elapsed / 1000) ∧
      (Before a.instant.renderUtc b.instant.renderUtc ↔ a.elapsed / 1000 < b.elapsed / 1000) := by
  have hmicros := a.instant_micros
  have hmicros' := b.instant_micros
  have htruncated : a.instant.truncated = ⟨a.elapsed / 1000 * 1000 - epoch, 0⟩ := by
    simp only [Instant.truncated, hmicros, epoch, Instant.mk.injEq, and_true]
    omega
  refine ⟨Instant.fits_renderUtc ha, ?_, ?_, ?_⟩
  · rw [Instant.read?_renderUtc ha, htruncated]
  · rw [Instant.renderUtc_eq_iff ha hb, hmicros, hmicros']
    unfold epoch
    omega
  · rw [Instant.before_renderUtc_iff ha hb, hmicros, hmicros']
    unfold epoch
    omega

/-- In the east it is March, in universal time still the leap day. -/
def eastern : Datetime where
  date := ⟨2024, 3, 1⟩
  hour := 0
  minute := 30
  second := 0
  micro := 123999
  offset := 19800000000
  isValid := by decide
  hour_lt := by decide
  minute_lt := by decide
  second_lt := by decide
  micro_lt := by decide
  offset_lt := by decide

/-- In the west the old century is not over, on a clock that is half a second more than five hours behind. -/
def western : Datetime where
  date := ⟨1899, 12, 31⟩
  hour := 20
  minute := 15
  second := 0
  micro := 1999
  offset := -18000500000
  isValid := by decide
  hour_lt := by decide
  minute_lt := by decide
  second_lt := by decide
  micro_lt := by decide
  offset_lt := by decide

theorem renderUtc_denotes_leap_day :
    eastern.instant.renderUtc = "2024-02-29T19:00:00.123Z".toList ∧
      western.instant.renderUtc = "1900-01-01T01:15:00.501Z".toList ∧
      (Fits "0000-00-00T00:00:00.000Z".toList eastern.instant.renderUtc ∧
        Instant.read? eastern.instant.renderUtc = some ⟨eastern.elapsed / 1000 * 1000 - epoch, 0⟩ ∧
        (eastern.instant.renderUtc = western.instant.renderUtc ↔ eastern.elapsed / 1000 = western.elapsed / 1000) ∧
        (Before eastern.instant.renderUtc western.instant.renderUtc ↔
          eastern.elapsed / 1000 < western.elapsed / 1000)) :=
  ⟨by decide, by decide, renderUtc_denotes eastern western ⟨by decide, by decide⟩ ⟨by decide, by decide⟩⟩

end Datetime

end CodeManifest
