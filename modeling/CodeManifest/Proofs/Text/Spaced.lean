import CodeManifest.Proofs.Text.Blank
import Mathlib.Data.List.Chain

namespace CodeManifest.Text

/-- The only blanks of the text are single spaces inside it. -/
structure IsSpaced (t : Text) : Prop where
  tight : t.IsTight
  blank_eq : ∀ c ∈ t, isBlank c = true → c = ' '
  single : t.IsChain fun c d => c = ' ' → d ≠ ' '

theorem words_append_blank {c : Char} (hc : isBlank c = true) (s t : Text) :
    words (s ++ c :: t) = words s ++ words t := by
  rw [words, split_append hc, List.filter_append]
  rfl

theorem words_eq_nil {b : Text} (hb : ∀ c ∈ b, isBlank c = true) : words b = [] := by
  induction b with
  | nil => rfl
  | cons c b ih =>
    obtain ⟨hc, hb⟩ := List.forall_mem_cons.mp hb
    have hcons := words_append_blank hc [] b
    rw [List.nil_append, ih hb] at hcons
    exact hcons

/-- A run of blanks sets words apart. -/
theorem words_append_blanks {b : Text} (hne : b ≠ []) (hb : ∀ c ∈ b, isBlank c = true) (s t : Text) :
    words (s ++ (b ++ t)) = words s ++ words t := by
  induction b generalizing s with
  | nil => exact absurd rfl hne
  | cons c b ih =>
    obtain ⟨hc, hb⟩ := List.forall_mem_cons.mp hb
    rw [List.cons_append, words_append_blank hc]
    by_cases hnil : b = []
    · rw [hnil, List.nil_append]
    · have hrest := ih hnil hb []
      rw [List.nil_append] at hrest
      rw [hrest]
      rfl

theorem words_append_of_blank {b : Text} (hb : ∀ c ∈ b, isBlank c = true) (t : Text) : words (t ++ b) = words t := by
  by_cases hnil : b = []
  · rw [hnil, List.append_nil]
  · have hends := words_append_blanks hnil hb t []
    rwa [List.append_nil, words_eq_nil (b := []) (by simp), List.append_nil] at hends

theorem words_blank_append {b : Text} (hb : ∀ c ∈ b, isBlank c = true) (t : Text) : words (b ++ t) = words t := by
  by_cases hnil : b = []
  · rw [hnil, List.nil_append]
  · have hends := words_append_blanks hnil hb [] t
    rwa [List.nil_append, words_eq_nil (b := []) (by simp), List.nil_append] at hends

theorem words_eq_singleton {w : Text} (hne : w ≠ []) (hw : ∀ c ∈ w, isBlank c = false) : words w = [w] := by
  rw [words, split_eq_singleton hw]
  simp [hne]

theorem ne_nil_of_mem_words {t w : Text} (hw : w ∈ words t) : w ≠ [] := by
  simpa using (List.mem_filter.mp hw).2

theorem isBlank_eq_false_of_mem_words {t w : Text} (hw : w ∈ words t) : ∀ c ∈ w, isBlank c = false :=
  eq_false_of_mem_split (List.mem_filter.mp hw).1

theorem words_ne_nil {t : Text} {c : Char} (hc : c ∈ t) (hblank : isBlank c = false) : words t ≠ [] := by
  intro hnil
  apply spaced_ne_nil hc hblank
  rw [spaced, hnil]
  rfl

/-- Words that are joined are read back. -/
theorem words_join {ws : List Text} (hws : ∀ w ∈ ws, w ≠ [] ∧ ∀ c ∈ w, isBlank c = false) :
    words (join " " ws) = ws := by
  induction ws with
  | nil => rfl
  | cons w ws ih =>
    obtain ⟨⟨hw, hblank⟩, hrest⟩ := List.forall_mem_cons.mp hws
    have hone := words_eq_singleton hw hblank
    by_cases hnil : ws = []
    · simpa [hnil, join] using hone
    · have hspace : ∀ c ∈ " ".toList, isBlank c = true := List.all_eq_true.mp (by decide)
      rw [join_cons _ w hnil, List.append_assoc, words_append_blanks (by decide) hspace, hone, ih hrest]
      rfl

theorem words_spaced (t : Text) : words (spaced t) = words t :=
  words_join fun _ hw => ⟨ne_nil_of_mem_words hw, isBlank_eq_false_of_mem_words hw⟩

/-- The first word ends in front of the first blank. -/
theorem words_of_head {t : Text} (hne : t ≠ []) (hhead : ∀ c ∈ t.head?, isBlank c = false) :
    words t = t.takeWhile (! isBlank ·) :: words (t.dropWhile (! isBlank ·)) := by
  have hfirst : ∀ c ∈ t.takeWhile (! isBlank ·), isBlank c = false := by
    intro c hc
    simpa using List.mem_takeWhile_imp hc
  have hnonempty : t.takeWhile (! isBlank ·) ≠ [] := by
    obtain ⟨c, r, rfl⟩ := List.exists_cons_of_ne_nil hne
    have hc := hhead c rfl
    simp [hc]
  have hone := words_eq_singleton hnonempty hfirst
  have hsplit := (List.takeWhile_append_dropWhile (p := (! isBlank ·)) (l := t)).symm
  cases hrest : t.dropWhile (! isBlank ·) with
  | nil =>
    rw [hrest, List.append_nil] at hsplit
    rw [← hsplit] at hone
    rw [hone, ← hsplit]
    rfl
  | cons d r =>
    have hd : isBlank d = true := by
      have hstop := List.head?_dropWhile_not (fun c => ! isBlank c) t
      rw [hrest] at hstop
      simpa using hstop
    conv_lhs => rw [hsplit, hrest, words_append_blank hd, hone]
    have hbehind := words_append_blank hd [] r
    rw [List.nil_append] at hbehind
    rw [hbehind]
    rfl

theorem spaced_append_blank {c : Char} (hc : isBlank c = true) {s t : Text} (hs : words s ≠ []) (ht : words t ≠ []) :
    spaced (s ++ c :: t) = spaced s ++ ' ' :: spaced t := by
  rw [spaced, words_append_blank hc, join_append hs ht]
  rfl

theorem isTight_of_ends {t : Text} (hne : t ≠ []) (hfirst : ∀ c ∈ t.head?, isBlank c = false)
    (hlast : ∀ c ∈ t.getLast?, isBlank c = false) : t.IsTight := by
  refine ⟨hne, ?_⟩
  rw [trim, trimLeft_eq_self.mpr hfirst, trimRight_eq_self.mpr hlast]

theorem IsTight.head_not_blank {t : Text} (h : t.IsTight) : ∀ c ∈ t.head?, isBlank c = false :=
  trimLeft_eq_self.mp (trimLeft_of_trim h.trim_eq)

theorem IsTight.last_not_blank {t : Text} (h : t.IsTight) : ∀ c ∈ t.getLast?, isBlank c = false := by
  have hright : trimRight t = t := by
    have htrim := h.trim_eq
    rwa [trim, trimLeft_of_trim h.trim_eq] at htrim
  exact trimRight_eq_self.mp hright

/-- A word alone has no blanks at all. -/
theorem isSpaced_word {w : Text} (hne : w ≠ []) (hw : ∀ c ∈ w, isBlank c = false) : w.IsSpaced := by
  have hspace : ∀ c ∈ w, c ≠ ' ' := by
    intro c hc hspace
    have hblank := hw c hc
    rw [hspace] at hblank
    cases hblank
  refine ⟨isTight_of_ends hne ?_ ?_, ?_, ?_⟩
  · intro c hc
    exact hw c (List.mem_of_mem_head? hc)
  · intro c hc
    exact hw c (List.mem_of_getLast? hc)
  · intro c hc hblank
    rw [hw c hc] at hblank
    cases hblank
  · apply List.Pairwise.isChain
    apply List.pairwise_of_forall_mem_list
    intro c _ d hd _
    exact hspace d hd

theorem isSpaced_append {w t : Text} (hne : w ≠ []) (hw : ∀ c ∈ w, isBlank c = false) (ht : t.IsSpaced) :
    (w ++ ' ' :: t).IsSpaced := by
  have hword := isSpaced_word hne hw
  refine ⟨isTight_of_ends (by simp) ?_ ?_, ?_, ?_⟩
  · intro c hc
    rw [List.head?_append_of_ne_nil w hne] at hc
    exact hword.tight.head_not_blank c hc
  · intro c hc
    have hlast : (w ++ ' ' :: t).getLast? = t.getLast? := by
      rw [List.getLast?_append, List.getLast?_cons_of_ne_nil ht.tight.ne_nil]
      simp [List.getLast?_eq_some_getLast ht.tight.ne_nil]
    rw [hlast] at hc
    exact ht.tight.last_not_blank c hc
  · intro c hc hblank
    rcases List.mem_append.mp hc with hc | hc
    · exact hword.blank_eq c hc hblank
    · rcases List.mem_cons.mp hc with rfl | hc
      · rfl
      · exact ht.blank_eq c hc hblank
  · rw [List.isChain_append]
    refine ⟨hword.single, List.isChain_cons.mpr ⟨?_, ht.single⟩, ?_⟩
    · intro d hd _ hspace
      have hblank := ht.tight.head_not_blank d hd
      rw [hspace] at hblank
      cases hblank
    · intro c hc d _ hspace
      have hblank := hword.tight.last_not_blank c hc
      rw [hspace] at hblank
      cases hblank

theorem isSpaced_join {ws : List Text} (hne : ws ≠ []) (hws : ∀ w ∈ ws, w ≠ [] ∧ ∀ c ∈ w, isBlank c = false) :
    (join " " ws).IsSpaced := by
  induction ws with
  | nil => exact absurd rfl hne
  | cons w ws ih =>
    obtain ⟨⟨hw, hblank⟩, hrest⟩ := List.forall_mem_cons.mp hws
    by_cases hnil : ws = []
    · have hone : join " " (w :: ws) = w := by simp [hnil, join]
      rw [hone]
      exact isSpaced_word hw hblank
    · rw [join_cons _ w hnil, List.append_assoc]
      exact isSpaced_append hw hblank (ih hnil hrest)

theorem isSpaced_spaced {t : Text} (h : words t ≠ []) : (spaced t).IsSpaced :=
  isSpaced_join h fun _ hw => ⟨ne_nil_of_mem_words hw, isBlank_eq_false_of_mem_words hw⟩

end CodeManifest.Text
