import CodeManifest.Text
import Mathlib.Tactic.Common

namespace CodeManifest.Text

variable {p : Char → Bool}

theorem split_cons_of_pos {d : Char} (hd : p d = true) (t : Text) : split p (d :: t) = [] :: split p t := by
  rw [split, if_pos hd]

/-- A character that does not end a piece goes in front of the first. -/
theorem exists_split_cons {d : Char} (hd : p d = false) (t : Text) :
    ∃ w ws, split p t = w :: ws ∧ split p (d :: t) = (d :: w) :: ws := by
  obtain ⟨w, ws, hsplit⟩ := List.exists_cons_of_ne_nil (split_ne_nil p t)
  refine ⟨w, ws, hsplit, ?_⟩
  rw [split, hd, if_neg Bool.false_ne_true, hsplit]

theorem split_eq_singleton {t : Text} (h : ∀ c ∈ t, p c = false) : split p t = [t] := by
  induction t with
  | nil => rfl
  | cons c t ih =>
    obtain ⟨hc, ht⟩ := List.forall_mem_cons.mp h
    rw [split, hc, if_neg Bool.false_ne_true, ih ht]

theorem eq_false_of_mem_split {t w : Text} (hw : w ∈ split p t) : ∀ c ∈ w, p c = false := by
  induction t generalizing w with
  | nil =>
    rw [List.mem_singleton.mp hw]
    simp
  | cons d t ih =>
    cases hd : p d with
    | true =>
      rw [split_cons_of_pos hd] at hw
      rcases List.mem_cons.mp hw with rfl | hw
      · simp
      · exact ih hw
    | false =>
      obtain ⟨v, vs, hsplit, hcons⟩ := exists_split_cons hd t
      rw [hcons] at hw
      rw [hsplit] at ih
      rcases List.mem_cons.mp hw with rfl | hw
      · exact List.forall_mem_cons.mpr ⟨hd, ih List.mem_cons_self⟩
      · exact ih (List.mem_cons_of_mem v hw)

/-- Each character that does not end a piece stands in one. -/
theorem exists_mem_split {t : Text} {c : Char} (hc : c ∈ t) (hp : p c = false) :
    ∃ w ∈ split p t, c ∈ w := by
  induction t with
  | nil => cases hc
  | cons d t ih =>
    cases hd : p d with
    | true =>
      have hne : c ≠ d := by
        intro heq
        rw [heq, hd] at hp
        cases hp
      obtain ⟨w, hw, hcw⟩ := ih (List.mem_of_ne_of_mem hne hc)
      rw [split_cons_of_pos hd]
      exact ⟨w, List.mem_cons_of_mem _ hw, hcw⟩
    | false =>
      obtain ⟨v, vs, hsplit, hcons⟩ := exists_split_cons hd t
      rw [hcons]
      rcases List.mem_cons.mp hc with rfl | hc
      · exact ⟨c :: v, List.mem_cons_self, List.mem_cons_self⟩
      · obtain ⟨w, hw, hcw⟩ := ih hc
        rw [hsplit] at hw
        rcases List.mem_cons.mp hw with rfl | hw
        · exact ⟨d :: w, List.mem_cons_self, List.mem_cons_of_mem _ hcw⟩
        · exact ⟨w, List.mem_cons_of_mem _ hw, hcw⟩

theorem split_append {c : Char} (hc : p c = true) (s t : Text) :
    split p (s ++ c :: t) = split p s ++ split p t := by
  induction s with
  | nil => simp [split, hc]
  | cons d s ih =>
    cases hd : p d with
    | true => rw [List.cons_append, split_cons_of_pos hd, split_cons_of_pos hd, ih, List.cons_append]
    | false =>
      obtain ⟨v, vs, hsplit, hcons⟩ := exists_split_cons hd (s ++ c :: t)
      obtain ⟨w, ws, hsplit', hcons'⟩ := exists_split_cons hd s
      rw [ih, hsplit', List.cons_append] at hsplit
      obtain ⟨rfl, rfl⟩ := List.cons.inj hsplit
      rw [List.cons_append, hcons, hcons', List.cons_append]

/-- The first piece ends in front of the first character that ends one. -/
theorem split_append_cons {t : Text} (h : ∀ c ∈ t, p c = false) {c : Char} (hc : p c = true) (r : Text) :
    split p (t ++ c :: r) = t :: split p r := by
  rw [split_append hc, split_eq_singleton h, List.singleton_append]

/-- What is written anew without touching the ends of pieces is split in the same way. -/
theorem split_map {f : Char → Char} (hf : ∀ c, p (f c) = p c) (t : Text) :
    split p (t.map f) = (split p t).map (List.map f) := by
  induction t with
  | nil => rfl
  | cons c t ih =>
    cases hc : p c with
    | true =>
      have hfc : p (f c) = true := by rw [hf, hc]
      rw [List.map_cons, split_cons_of_pos hfc, split_cons_of_pos hc, ih]
      rfl
    | false =>
      have hfc : p (f c) = false := by rw [hf, hc]
      obtain ⟨v, vs, hsplit, hcons⟩ := exists_split_cons hc t
      obtain ⟨w, ws, hsplit', hcons'⟩ := exists_split_cons hfc (t.map f)
      rw [ih, hsplit] at hsplit'
      obtain ⟨rfl, rfl⟩ := List.cons.inj hsplit'
      rw [List.map_cons, hcons', hcons]
      rfl

theorem join_ne_nil {sep w : Text} {ws : List Text} (h : w ≠ []) : join sep (w :: ws) ≠ [] := by
  unfold join
  cases ws <;> simp [h]

theorem join_append {sep : Text} {ss ts : List Text} (hs : ss ≠ []) (ht : ts ≠ []) :
    join sep (ss ++ ts) = join sep ss ++ (sep ++ join sep ts) := by
  induction ss with
  | nil => exact absurd rfl hs
  | cons s ss ih =>
    have hrest : ss ++ ts ≠ [] := by simp [ht]
    rw [List.cons_append, join_cons sep s hrest]
    by_cases hss : ss = []
    · simp [hss, join]
    · rw [ih hss, join_cons sep s hss]
      simp

theorem decide_eq_false_of_notMem {c : Char} {t : Text} (h : c ∉ t) : ∀ d ∈ t, decide (d = c) = false :=
  fun _ hd => decide_eq_false fun he => h (he ▸ hd)

/-- Pieces in front come apart whatever stands behind them. -/
theorem split_join_append {c : Char} {ts us : List Text} (hus : us ≠ []) (h : ∀ t ∈ ts, c ∉ t) :
    split (· = c) (join [c] (ts ++ us)) = ts ++ split (· = c) (join [c] us) := by
  induction ts with
  | nil => rfl
  | cons t ts ih =>
    obtain ⟨ht, hts⟩ := List.forall_mem_cons.mp h
    rw [List.cons_append, join_cons [c] t (by simp [hus]), List.append_assoc, List.singleton_append,
      split_append_cons (decide_eq_false_of_notMem ht) (by simp), ih hts, List.cons_append]

/-- Pieces that were put together come apart. -/
theorem split_join {c : Char} {ts : List Text} (hne : ts ≠ []) (h : ∀ t ∈ ts, c ∉ t) :
    split (· = c) (join [c] ts) = ts := by
  rcases List.eq_nil_or_concat ts with rfl | ⟨front, t, rfl⟩
  · exact absurd rfl hne
  · rw [List.concat_eq_append] at h ⊢
    obtain ⟨hfront, ht⟩ := List.forall_mem_append.mp h
    have hlast : split (· = c) (join [c] [t]) = [t] := by
      simpa [join] using split_eq_singleton (decide_eq_false_of_notMem (ht t List.mem_cons_self))
    rw [split_join_append (List.cons_ne_nil t []) hfront, hlast]

end CodeManifest.Text
