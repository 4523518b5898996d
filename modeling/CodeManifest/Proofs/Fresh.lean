import Mathlib.Data.List.Forall2
import Mathlib.Data.List.Nodup
import Mathlib.Tactic.Tauto

namespace CodeManifest

variable {α β κ : Type}

/-- At position `i` of the list stands what `f` makes `b`, and nothing before it is made an item with the
same key. -/
def FirstAt (f : α → Option β) (key : β → κ) (as : List α) (i : Nat) (b : β) : Prop :=
  (∃ a, as[i]? = some a ∧ f a = some b) ∧
    ∀ j < i, ∀ a c, as[j]? = some a → f a = some c → key c ≠ key b

theorem FirstAt.zero {f : α → Option β} {key : β → κ} {a : α} {b : β} (h : f a = some b)
    (as : List α) : FirstAt f key (a :: as) 0 b :=
  ⟨⟨a, rfl, h⟩, fun j hj => absurd hj (Nat.not_lt_zero j)⟩

theorem FirstAt.succ {f : α → Option β} {key : β → κ} {a : α} {as : List α} {i : Nat} {b : β}
    (ha : ∀ c, f a = some c → key c ≠ key b) (h : FirstAt f key as i b) :
    FirstAt f key (a :: as) (i + 1) b := by
  obtain ⟨⟨x, hx, hb⟩, hfirst⟩ := h
  refine ⟨⟨x, by simpa using hx, hb⟩, ?_⟩
  intro j hj y c hy hc
  cases j with
  | zero =>
    obtain rfl : a = y := by simpa using hy
    exact ha c hc
  | succ j => exact hfirst j (Nat.lt_of_succ_lt_succ hj) y c (by simpa using hy) hc

/-- With an item more in front, whose key was seen, all positions move on by one. -/
private theorem forall₂_firstAt_cons {f : α → Option β} {key : β → κ} {seen : List κ} {a : α}
    {as : List α} {positions : List Nat} {bs : List β} (ha : ∀ c, f a = some c → key c ∈ seen)
    (h : List.Forall₂ (fun i b => FirstAt f key as i b ∧ key b ∉ seen) positions bs) :
    List.Forall₂ (fun i b => FirstAt f key (a :: as) i b ∧ key b ∉ seen)
      (positions.map (· + 1)) bs := by
  rw [List.forall₂_map_left_iff]
  refine h.imp ?_
  rintro i b ⟨hi, hb⟩
  exact ⟨hi.succ fun c hc he => hb (he ▸ ha c hc), hb⟩

variable [DecidableEq κ]

/-- The items whose keys are neither in `seen` nor the key of an item before them. -/
def fresh (key : α → κ) (seen : List κ) : List α → List α
  | [] => []
  | a :: as =>
    if key a ∈ seen then fresh key seen as else a :: fresh key (key a :: seen) as

theorem fresh_cons_of_mem {key : α → κ} {seen : List κ} {a : α} (h : key a ∈ seen) (as : List α) :
    fresh key seen (a :: as) = fresh key seen as := by
  rw [fresh, if_pos h]

theorem fresh_cons_of_notMem {key : α → κ} {seen : List κ} {a : α} (h : key a ∉ seen)
    (as : List α) : fresh key seen (a :: as) = a :: fresh key (key a :: seen) as := by
  rw [fresh, if_neg h]

/-- Of what was seen, only the members count. -/
theorem fresh_congr (key : α → κ) {seen seen' : List κ} (h : ∀ k, k ∈ seen ↔ k ∈ seen')
    (as : List α) : fresh key seen as = fresh key seen' as := by
  induction as generalizing seen seen' with
  | nil => rfl
  | cons a as ih =>
    by_cases ha : key a ∈ seen
    · rw [fresh_cons_of_mem ha, fresh_cons_of_mem ((h _).mp ha)]
      exact ih h
    · have ha' : key a ∉ seen' := fun hk => ha ((h _).mpr hk)
      rw [fresh_cons_of_notMem ha, fresh_cons_of_notMem ha']
      have htail : ∀ k, k ∈ key a :: seen ↔ k ∈ key a :: seen' := by
        intro k
        simp only [List.mem_cons, h k]
      exact congrArg (List.cons a) (ih htail)

/-- What was seen at the start only takes items away. -/
theorem fresh_append_seen (key : α → κ) (seen : List κ) {more : List κ} {p : α → Bool}
    (hp : ∀ a, p a = true ↔ key a ∉ more) (as : List α) :
    fresh key (more ++ seen) as = (fresh key seen as).filter p := by
  induction as generalizing seen with
  | nil => rfl
  | cons a as ih =>
    by_cases hs : key a ∈ seen
    · have hk : key a ∈ more ++ seen := List.mem_append_right _ hs
      rw [fresh_cons_of_mem hs, fresh_cons_of_mem hk]
      exact ih seen
    · rw [fresh_cons_of_notMem hs]
      have hswap : fresh key (key a :: (more ++ seen)) as =
          (fresh key (key a :: seen) as).filter p := by
        rw [← ih (key a :: seen)]
        apply fresh_congr
        intro k
        simp only [List.mem_cons, List.mem_append]
        tauto
      by_cases hm : key a ∈ more
      · have hk : key a ∈ more ++ seen := List.mem_append_left _ hm
        have hpa : ¬p a = true := fun h => (hp a).mp h hm
        rw [fresh_cons_of_mem hk, List.filter_cons_of_neg hpa, ← hswap]
        apply fresh_congr
        intro k
        simp only [List.mem_cons, List.mem_append]
        constructor
        · exact Or.inr
        · rintro (rfl | h)
          · exact Or.inl hm
          · exact h
      · have hk : key a ∉ more ++ seen := by simp [hm, hs]
        rw [fresh_cons_of_notMem hk, List.filter_cons_of_pos ((hp a).mpr hm), hswap]

theorem fresh_eq_filter (key : α → κ) {seen : List κ} {p : α → Bool}
    (hp : ∀ a, p a = true ↔ key a ∉ seen) (as : List α) :
    fresh key seen as = (fresh key [] as).filter p := by
  have h := fresh_append_seen key [] hp as
  rwa [List.append_nil] at h

theorem mem_of_mem_fresh {key : α → κ} {seen : List κ} {a : α} {as : List α}
    (h : a ∈ fresh key seen as) : a ∈ as := by
  induction as generalizing seen with
  | nil => exact h
  | cons b as ih =>
    by_cases hb : key b ∈ seen
    · rw [fresh_cons_of_mem hb] at h
      exact List.mem_cons_of_mem _ (ih h)
    · rw [fresh_cons_of_notMem hb] at h
      rcases List.mem_cons.mp h with rfl | h
      · exact List.mem_cons_self
      · exact List.mem_cons_of_mem _ (ih h)

/-- Every key comes up, unless it was seen at the start. -/
theorem mem_keys_fresh (key : α → κ) (seen : List κ) (as : List α) (k : κ) :
    k ∈ (fresh key seen as).map key ↔ k ∈ as.map key ∧ k ∉ seen := by
  induction as generalizing seen with
  | nil => simp [fresh]
  | cons a as ih =>
    by_cases ha : key a ∈ seen
    · rw [fresh_cons_of_mem ha, ih]
      simp only [List.map_cons, List.mem_cons]
      constructor
      · rintro ⟨h, hk⟩
        exact ⟨Or.inr h, hk⟩
      · rintro ⟨rfl | h, hk⟩
        · exact absurd ha hk
        · exact ⟨h, hk⟩
    · rw [fresh_cons_of_notMem ha, List.map_cons, List.mem_cons, ih]
      simp only [List.map_cons, List.mem_cons, not_or]
      by_cases hk : k = key a
      · subst hk
        simp [ha]
      · simp [hk]

theorem nodup_keys_fresh (key : α → κ) (seen : List κ) (as : List α) :
    ((fresh key seen as).map key).Nodup := by
  induction as generalizing seen with
  | nil => exact List.nodup_nil
  | cons a as ih =>
    by_cases ha : key a ∈ seen
    · rw [fresh_cons_of_mem ha]
      exact ih seen
    · rw [fresh_cons_of_notMem ha, List.map_cons]
      refine List.nodup_cons.mpr ⟨?_, ih _⟩
      intro h
      exact ((mem_keys_fresh key _ as _).mp h).2 List.mem_cons_self

theorem fresh_append (key : α → κ) (seen : List κ) (as bs : List α) :
    fresh key seen (as ++ bs) =
      fresh key seen as ++ fresh key ((fresh key seen as).map key ++ seen) bs := by
  induction as generalizing seen with
  | nil => simp [fresh]
  | cons a as ih =>
    rw [List.cons_append]
    by_cases ha : key a ∈ seen
    · rw [fresh_cons_of_mem ha, fresh_cons_of_mem ha]
      exact ih seen
    · rw [fresh_cons_of_notMem ha, fresh_cons_of_notMem ha, ih, List.cons_append]
      have hseen : ∀ k, k ∈ (fresh key (key a :: seen) as).map key ++ key a :: seen ↔
          k ∈ (a :: fresh key (key a :: seen) as).map key ++ seen := by
        intro k
        simp only [List.map_cons, List.mem_append, List.mem_cons]
        tauto
      rw [fresh_congr key hseen]

/-- The items stand at growing positions of the list that they are taken from, and each is the first
there with its key. -/
theorem fresh_positions (f : α → Option β) (key : β → κ) (seen : List κ) (as : List α) :
    ∃ positions : List Nat, positions.Pairwise (· < ·) ∧
      List.Forall₂ (fun i b => FirstAt f key as i b ∧ key b ∉ seen) positions
        (fresh key seen (as.filterMap f)) := by
  induction as generalizing seen with
  | nil => exact ⟨[], List.Pairwise.nil, List.Forall₂.nil⟩
  | cons a as ih =>
    have grow {positions : List Nat} (h : positions.Pairwise (· < ·)) :
        (positions.map (· + 1)).Pairwise (· < ·) := by
      rw [List.pairwise_map]
      exact h.imp fun hlt => Nat.succ_lt_succ hlt
    cases hf : f a with
    | none =>
      obtain ⟨positions, hlt, hall⟩ := ih seen
      rw [List.filterMap_cons_none hf]
      exact ⟨_, grow hlt, forall₂_firstAt_cons (by simp [hf]) hall⟩
    | some b =>
      rw [List.filterMap_cons_some hf]
      have ha (seen' : List κ) (hb : key b ∈ seen') : ∀ c, f a = some c → key c ∈ seen' := by
        intro c hc
        obtain rfl : b = c := Option.some.inj (hf.symm.trans hc)
        exact hb
      by_cases hb : key b ∈ seen
      · obtain ⟨positions, hlt, hall⟩ := ih seen
        rw [fresh_cons_of_mem hb]
        exact ⟨_, grow hlt, forall₂_firstAt_cons (ha seen hb) hall⟩
      · obtain ⟨positions, hlt, hall⟩ := ih (key b :: seen)
        have htail := forall₂_firstAt_cons (ha _ List.mem_cons_self) hall
        rw [fresh_cons_of_notMem hb]
        refine ⟨0 :: positions.map (· + 1), List.pairwise_cons.mpr ⟨?_, grow hlt⟩,
          List.Forall₂.cons ⟨FirstAt.zero hf as, hb⟩ (htail.imp ?_)⟩
        · intro i hi
          obtain ⟨p, -, rfl⟩ := List.mem_map.mp hi
          exact Nat.succ_pos p
        · rintro i c ⟨hi, hc⟩
          exact ⟨hi, fun hk => hc (List.mem_cons_of_mem _ hk)⟩

end CodeManifest
