import CodeManifest.Proofs.Text.Blank
import CodeManifest.Text.LowerCase
import Mathlib.Data.List.Sort

namespace CodeManifest.Text

/-- Letters that share their capital with another small letter, with that one. The iota below a letter has a capital
too, but it is a mark, and no letter. -/
def sharing : List (Char × Char) := [
  ('\u0130', 'i'), ('\u0131', 'i'), ('\u017F', 's'), ('\u00B5', '\u03BC'), ('\u1FD3', '\u0390'),
  ('\u1FE3', '\u03B0'), ('\u03D0', '\u03B2'), ('\u03F5', '\u03B5'), ('\u03D1', '\u03B8'), ('\u1FBE', '\u03B9'),
  ('\u03F0', '\u03BA'), ('\u03D6', '\u03C0'), ('\u03F1', '\u03C1'), ('\u03C2', '\u03C3'), ('\u03D5', '\u03C6'),
  ('\u1C80', '\u0432'), ('\u1C81', '\u0434'), ('\u1C82', '\u043E'), ('\u1C83', '\u0441'), ('\u1C84', '\u0442'),
  ('\u1C85', '\u0442'), ('\u1C86', '\u044A'), ('\u1C87', '\u0463'), ('\u1C88', '\uA64B'), ('\u1E9B', '\u1E61'),
  ('\uFB06', '\uFB05')]

/-- The letter without its case. -/
def caseless (c : Char) : Char := (sharing.lookup (lowerChar c)).getD (lowerChar c)

/-- The code points of a range are those of characters. -/
def isValidRange (lo hi : Nat) : Bool := Nat.blt hi 0xD800 || (Nat.ble 0xE000 lo && Nat.blt hi 0x110000)

theorem toNat_ofNat_of_isValidRange {lo hi n : Nat} (h : isValidRange lo hi = true) (hlo : lo ≤ n) (hhi : n ≤ hi) :
    (Char.ofNat n).toNat = n := by
  simp only [isValidRange, Bool.or_eq_true, Bool.and_eq_true, Nat.ble_eq, Nat.blt_eq] at h
  have hvalid : n.isValidChar := by
    unfold Nat.isValidChar
    omega
  rw [Char.ofNat, dif_pos hvalid]
  rfl

/-- A range of code points without blanks. -/
def isFree (lo hi : Nat) : Bool := blankPoints.all fun n => Nat.blt n lo || Nat.blt hi n

theorem isBlank_of_isFree {lo hi : Nat} (h : isFree lo hi = true) {c : Char} (hlo : lo ≤ c.toNat)
    (hhi : c.toNat ≤ hi) : isBlank c = false := by
  by_contra hblank
  have hapart := List.all_eq_true.mp h _ (toNat_mem_blankPoints (eq_true_of_ne_false hblank))
  simp only [Bool.or_eq_true, Nat.blt_eq] at hapart
  omega

/-- A run of capitals: the first, the last, their distance, and the small letter of the first. -/
abbrev Run := Nat × Nat × Nat × Nat

/-- The capitals of a run are word characters where their small letters are. -/
def Run.keepsWords : Run → Bool := fun (lo, hi, step, small) =>
  let last := small + (hi - lo)
  (isUniform lo hi true && isUniform small last true) || (isUniform lo hi false && isUniform small last false) ||
    (List.range (hi - lo + 1)).all fun k =>
      k % step ≠ 0 || isWord (Char.ofNat (lo + k)) = isWord (Char.ofNat (small + k))

/-- The capitals of a run. -/
def Run.capitals : Run → Nat × Nat := fun (lo, hi, _, _) => (lo, hi)

/-- The small letters of a run, and what lies between them. -/
def Run.smalls : Run → Nat × Nat := fun (lo, hi, _, small) => (small, small + (hi - lo))

/-- Runs in which some characters are not in the ranges of word characters beyond ASCII: Greek capitals that are not
there, the Kelvin sign, which has a small letter of ASCII, and letters in circles. -/
def Run.isOdd (r : Run) : Bool := [8025, 8490, 9398].contains r.1

/-- Does each interval lie in one of the ranges, and beyond ASCII? Both are in order, so that one pass of at most `n`
steps is enough. -/
def lieWithin : Nat → List (Nat × Nat) → List (Nat × Nat) → Bool
  | _, [], _ => true
  | n + 1, q :: qs, r :: rs =>
    if Nat.ble q.2 r.2 then Nat.ble 128 q.1 && Nat.ble r.1 q.1 && lieWithin n qs (r :: rs)
    else lieWithin n (q :: qs) rs
  | _, _, _ => false

theorem exists_of_lieWithin {n : Nat} {qs rs : List (Nat × Nat)} (h : lieWithin n qs rs = true) :
    ∀ q ∈ qs, 128 ≤ q.1 ∧ ∃ r ∈ rs, r.1 ≤ q.1 ∧ q.2 ≤ r.2 := by
  induction n generalizing qs rs with
  | zero =>
    cases qs with
    | nil => simp
    | cons q qs => cases h
  | succ n ih =>
    cases qs with
    | nil => simp
    | cons q qs =>
      cases rs with
      | nil => cases h
      | cons r rs =>
        unfold lieWithin at h
        split at h
        · next hend =>
          simp only [Bool.and_eq_true, Nat.ble_eq] at h hend
          obtain ⟨⟨hascii, hstart⟩, hrest⟩ := h
          intro x hx
          rcases List.mem_cons.mp hx with rfl | hx
          · exact ⟨hascii, r, List.mem_cons_self, hstart, hend⟩
          · exact ih hrest x hx
        · intro x hx
          obtain ⟨hascii, r', hr', hwithin⟩ := ih h x hx
          exact ⟨hascii, r', List.mem_cons_of_mem r hr', hwithin⟩

theorem isUniform_of_lieWithin {n : Nat} {qs : List (Nat × Nat)} (h : lieWithin n qs wordRange = true) {lo hi : Nat}
    (hq : (lo, hi) ∈ qs) : isUniform lo hi true = true := by
  obtain ⟨hascii, r, hr, hstart, hend⟩ := exists_of_lieWithin h _ hq
  simp only [isUniform, if_true, Bool.and_eq_true, Nat.ble_eq, List.any_eq_true]
  exact ⟨hascii, r, hr, hstart, hend⟩

theorem keepsWords_lowerRun : ∀ r ∈ lowerRun, Run.keepsWords r = true := by
  have hcapitals : lieWithin 1000 ((lowerRun.filter (! Run.isOdd ·)).map Run.capitals) wordRange = true := by
    decide +kernel
  have hsmalls : lieWithin 1000 (((lowerRun.filter (! Run.isOdd ·)).map Run.smalls).insertionSort
      fun q r => Nat.ble q.1 r.1 = true) wordRange = true := by
    decide +kernel
  have hodd : ∀ r ∈ lowerRun.filter Run.isOdd, Run.keepsWords r = true := by decide +kernel
  intro r hr
  cases hplain : Run.isOdd r with
  | true => exact hodd r (List.mem_filter.mpr ⟨hr, hplain⟩)
  | false =>
    have hmem : r ∈ lowerRun.filter (! Run.isOdd ·) := List.mem_filter.mpr ⟨hr, by simp [hplain]⟩
    have hlarge := isUniform_of_lieWithin hcapitals (List.mem_map_of_mem hmem)
    have hsmall := isUniform_of_lieWithin hsmalls ((List.mem_insertionSort _).mpr (List.mem_map_of_mem hmem))
    simp [Run.keepsWords, hlarge, hsmall]

/-- All small letters of a run are characters, and there are no blanks in it. -/
def Run.isSound : Run → Bool := fun (lo, hi, _, small) =>
  let last := small + (hi - lo)
  isValidRange small last && isFree lo hi && isFree small last

/-- But for the Kelvin sign, small letters of a run lie beyond ASCII, and none counts as a letter of ASCII. -/
def Run.isFar : Run → Bool := fun (lo, hi, _, small) =>
  (lo = 0x212A && hi = 0x212A && small = 'k'.toNat) ||
    (Nat.ble 128 small && [0x130, 0x131, 0x17F].all fun n => Nat.blt n small || Nat.blt (small + (hi - lo)) n)

theorem isSound_lowerRun : ∀ r ∈ lowerRun, Run.isSound r = true ∧ Run.isFar r = true := by decide +kernel

/-- Where the run of a character is looked up. -/
structure Run.Takes (r : Run) (c : Char) : Prop where
  mem : r ∈ lowerRun
  ge : r.1 ≤ c.toNat
  le : c.toNat ≤ r.2.1
  dvd : (c.toNat - r.1) % r.2.2.1 = 0

/-- The place of a small letter is that of its capital. -/
theorem Run.Takes.toNat_small {r : Run} {c : Char} (h : r.Takes c) :
    (Char.ofNat (r.2.2.2 + (c.toNat - r.1))).toNat = r.2.2.2 + (c.toNat - r.1) := by
  obtain ⟨lo, hi, step, small⟩ := r
  obtain ⟨hmem, hge, hle, -⟩ := h
  have hsound := (isSound_lowerRun _ hmem).1
  simp only [isSound, Bool.and_eq_true] at hsound
  dsimp only at hge hle ⊢
  exact toNat_ofNat_of_isValidRange hsound.1.1 (by omega) (by omega)

/-- A character beyond ASCII has the small letter that its run says. -/
theorem lowerChar_of_high {c : Char} (hc : 128 ≤ c.toNat) :
    lowerChar c = c ∨ ∃ r : Run, r.Takes c ∧ lowerChar c = Char.ofNat (r.2.2.2 + (c.toNat - r.1)) := by
  unfold lowerChar
  rw [if_neg (by omega)]
  split
  · next lo hi step small hfind =>
    have hmem := List.mem_of_find?_eq_some hfind
    have hrun := List.find?_some hfind
    simp only [Bool.and_eq_true, decide_eq_true_eq] at hrun
    exact .inr ⟨(lo, hi, step, small), ⟨hmem, hrun.1.1, hrun.1.2, hrun.2⟩, rfl⟩
  · exact .inl rfl

theorem lowerChar_ascii_alike : ∀ n < 128, isWord (lowerChar (Char.ofNat n)) = isWord (Char.ofNat n) ∧
    isBlank (lowerChar (Char.ofNat n)) = isBlank (Char.ofNat n) ∧ caseless (Char.ofNat n) = (Char.ofNat n).toLower := by
  decide +kernel

theorem isWord_lowerChar (c : Char) : isWord (lowerChar c) = isWord c := by
  by_cases hc : c.toNat < 128
  · simpa using (lowerChar_ascii_alike c.toNat hc).1
  · rcases lowerChar_of_high (Nat.le_of_not_lt hc) with hsame | ⟨⟨lo, hi, step, small⟩, hr, hlower⟩
    · rw [hsame]
    · have hplace := hr.toNat_small
      obtain ⟨hmem, hge, hle, hstep⟩ := hr
      have hkeeps := keepsWords_lowerRun _ hmem
      dsimp only at hplace hge hle hstep hlower
      rw [hlower]
      simp only [Run.keepsWords, Bool.or_eq_true, Bool.and_eq_true] at hkeeps
      rcases hkeeps with (⟨hcapital, hsmall⟩ | ⟨hcapital, hsmall⟩) | heach
      · rw [isWord_of_isUniform hcapital hge hle, isWord_of_isUniform hsmall (by omega) (by omega)]
      · rw [isWord_of_isUniform hcapital hge hle, isWord_of_isUniform hsmall (by omega) (by omega)]
      · have hone := List.all_eq_true.mp heach (c.toNat - lo) (List.mem_range.mpr (by omega))
        simp only [Bool.or_eq_true, decide_eq_true_eq] at hone
        rcases hone with hskip | hsame
        · exact absurd hstep hskip
        · rw [Nat.add_sub_cancel' hge, Char.ofNat_toNat] at hsame
          exact hsame.symm

theorem isBlank_lowerChar (c : Char) : isBlank (lowerChar c) = isBlank c := by
  by_cases hc : c.toNat < 128
  · simpa using (lowerChar_ascii_alike c.toNat hc).2.1
  · rcases lowerChar_of_high (Nat.le_of_not_lt hc) with hsame | ⟨⟨lo, hi, step, small⟩, hr, hlower⟩
    · rw [hsame]
    · have hplace := hr.toNat_small
      obtain ⟨hmem, hge, hle, -⟩ := hr
      have hsound := (isSound_lowerRun _ hmem).1
      dsimp only at hplace hge hle hlower
      simp only [Run.isSound, Bool.and_eq_true] at hsound
      rw [hlower, isBlank_of_isFree hsound.1.2 hge hle, isBlank_of_isFree hsound.2 (by omega) (by omega)]

/-- The small letter, or the one that shares its capital. -/
theorem caseless_cases (c : Char) : caseless c = lowerChar c ∨ (lowerChar c, caseless c) ∈ sharing := by
  unfold caseless
  cases h : sharing.lookup (lowerChar c) with
  | none => exact .inl rfl
  | some d =>
    obtain ⟨before, after, hsplit, -⟩ := List.lookup_eq_some_iff.mp h
    refine .inr ?_
    rw [hsplit]
    simp

theorem sharing_alike : ∀ e ∈ sharing, isWord e.1 = isWord e.2 ∧ isBlank e.1 = isBlank e.2 := by decide +kernel

theorem isWord_caseless (c : Char) : isWord (caseless c) = isWord c := by
  rcases caseless_cases c with hsame | hmem
  · rw [hsame, isWord_lowerChar]
  · exact (sharing_alike _ hmem).1.symm.trans (isWord_lowerChar c)

theorem isBlank_caseless (c : Char) : isBlank (caseless c) = isBlank c := by
  rcases caseless_cases c with hsame | hmem
  · rw [hsame, isBlank_lowerChar]
  · exact (sharing_alike _ hmem).2.symm.trans (isBlank_lowerChar c)

theorem words_map_caseless (t : Text) : words (t.map caseless) = (words t).map (List.map caseless) := by
  rw [words, words, split_map isBlank_caseless, List.filter_map]
  simp [Function.comp_def]

theorem toLower_of_small {a : Char} (ha : 'a' ≤ a ∧ a ≤ 'z') : a.toLower = a := by
  have hlow : 97 ≤ a.val.toNat := ha.1
  have hcapital : ¬ (a.val ≥ 'A'.val ∧ a.val ≤ 'Z'.val) := by
    rintro ⟨-, hle⟩
    have hle : a.val.toNat ≤ 90 := hle
    omega
  exact dif_neg hcapital

theorem toLower_of_high {c : Char} (hc : 128 ≤ c.toNat) : c.toLower = c := by
  have hcapital : ¬ (c.val ≥ 'A'.val ∧ c.val ≤ 'Z'.val) := by
    rintro ⟨-, hle⟩
    have hle : c.toNat ≤ 90 := hle
    omega
  exact dif_neg hcapital

theorem caseless_of_ascii {c : Char} (hc : c.toNat < 128) : caseless c = c.toLower := by
  simpa using (lowerChar_ascii_alike c.toNat hc).2.2

/-- The characters beyond ASCII that count as a small letter of it. -/
def guests : List (Char × Char) := [('\u0130', 'i'), ('\u0131', 'i'), ('\u017F', 's'), ('\u212A', 'k')]

theorem eq_of_toNat {c : Char} {n : Nat} (h : c.toNat = n) : c = Char.ofNat n := by
  rw [← h, Char.ofNat_toNat]

theorem lowerChar_eq_of_high {c a : Char} (hc : 128 ≤ c.toNat) (h : lowerChar c = a)
    (ha : a.toNat < 128 ∨ a.toNat ∈ [0x130, 0x131, 0x17F]) : c = a ∨ (c = '\u212A' ∧ a = 'k') := by
  rcases lowerChar_of_high hc with hsame | ⟨⟨lo, hi, step, small⟩, hr, hlower⟩
  · exact .inl (hsame.symm.trans h)
  · have hplace := hr.toNat_small
    obtain ⟨hmem, hge, hle, -⟩ := hr
    have hfar := (isSound_lowerRun _ hmem).2
    dsimp only at hplace hge hle hlower
    rw [← hlower, h] at hplace
    simp only [Run.isFar, Bool.or_eq_true, Bool.and_eq_true, decide_eq_true_eq, List.all_cons, List.all_nil,
      Nat.ble_eq, Nat.blt_eq, and_true] at hfar
    rcases hfar with ⟨⟨rfl, rfl⟩, rfl⟩ | hfar
    · have hkelvin : c.toNat = 0x212A := by omega
      have hk : a.toNat = 'k'.toNat := by omega
      exact .inr ⟨eq_of_toNat hkelvin, Char.toNat_inj.mp hk⟩
    · simp only [List.mem_cons, List.not_mem_nil, or_false] at ha
      omega

theorem mem_guests {c a : Char} (hc : 128 ≤ c.toNat) (ha : a.toNat < 128) (h : caseless c = a) : (c, a) ∈ guests := by
  rcases caseless_cases c with hsame | hmem
  · rcases lowerChar_eq_of_high hc (hsame.symm.trans h) (.inl ha) with rfl | ⟨rfl, rfl⟩
    · omega
    · decide
  · have hsharing : ∀ e ∈ sharing, e.2.toNat < 128 → e.1.toNat ∈ [0x130, 0x131, 0x17F] ∧ e.1 ≠ 'k' ∧ e ∈ guests := by
      decide
    rw [h] at hmem
    obtain ⟨hplace, hk, hguest⟩ := hsharing _ hmem ha
    rcases lowerChar_eq_of_high hc rfl (.inr hplace) with hsame | ⟨-, hlower⟩
    · rw [← hsame] at hguest
      exact hguest
    · exact absurd hlower hk

/-- A character counts as a small letter if it is that letter in any case. -/
theorem isLetter_iff {a c : Char} (ha : 'a' ≤ a ∧ a ≤ 'z') : isLetter a c = true ↔ caseless c = a := by
  have hplace : a.toNat ≤ 122 := ha.2
  simp only [isLetter, Bool.or_eq_true, Bool.and_eq_true, decide_eq_true_eq]
  by_cases hc : c.toNat < 128
  · rw [caseless_of_ascii hc]
    constructor
    · rintro ((((rfl | hlower) | ⟨-, rfl | rfl⟩) | ⟨-, rfl⟩) | ⟨-, rfl⟩)
      · exact toLower_of_small ha
      · exact hlower
      all_goals exact absurd hc (by decide)
    · intro hlower
      exact .inl (.inl (.inl (.inr hlower)))
  · have hhigh : 128 ≤ c.toNat := Nat.le_of_not_lt hc
    constructor
    · rintro ((((rfl | hlower) | ⟨rfl, rfl | rfl⟩) | ⟨rfl, rfl⟩) | ⟨rfl, rfl⟩)
      · omega
      · rw [toLower_of_high hhigh] at hlower
        rw [hlower] at hhigh
        omega
      all_goals decide
    · intro hcaseless
      have hguest := mem_guests hhigh (by omega) hcaseless
      simp only [guests, List.mem_cons, List.not_mem_nil, Prod.mk.injEq, or_false] at hguest
      rcases hguest with ⟨rfl, rfl⟩ | ⟨rfl, rfl⟩ | ⟨rfl, rfl⟩ | ⟨rfl, rfl⟩ <;> simp

/-- Is a text written in small letters? -/
def isSmall (p : Text) : Bool := p.all fun c => 'a' ≤ c && c ≤ 'z'

theorem isSmall_iff {p : Text} : isSmall p = true ↔ ∀ c ∈ p, 'a' ≤ c ∧ c ≤ 'z' := by
  simp [isSmall]

/-- A word of small letters begins a text if its letters stand there in any case. -/
theorem dropFolded?_eq_some_iff {p t r : Text} (hp : ∀ c ∈ p, 'a' ≤ c ∧ c ≤ 'z') :
    dropFolded? p t = some r ↔ ∃ s, t = s ++ r ∧ s.map caseless = p := by
  induction p generalizing t with
  | nil => simp [dropFolded?]
  | cons a p ih =>
    obtain ⟨ha, hp⟩ := List.forall_mem_cons.mp hp
    cases t with
    | nil => simp [dropFolded?]
    | cons c t =>
      constructor
      · intro h
        rw [dropFolded?] at h
        split at h
        · next hc =>
          obtain ⟨s, rfl, hs⟩ := (ih hp).mp h
          exact ⟨c :: s, rfl, by rw [List.map_cons, (isLetter_iff ha).mp hc, hs]⟩
        · cases h
      · rintro ⟨s, hs, hmap⟩
        cases s with
        | nil => cases hmap
        | cons d s =>
          obtain ⟨rfl, rfl⟩ := List.cons.inj hs
          obtain ⟨hfirst, hrest⟩ := List.cons.inj hmap
          rw [dropFolded?, if_pos ((isLetter_iff ha).mpr hfirst)]
          exact (ih hp).mpr ⟨s, rfl, hrest⟩

end CodeManifest.Text
