namespace CodeManifest

abbrev Keyed (κ α : Type) := List (κ × α)

namespace Keyed

variable {κ α : Type} [DecidableEq κ]

/-- The entries with `v` under `k`. -/
def put (k : κ) (v : α) : Keyed κ α → Keyed κ α
  | [] => [(k, v)]
  | (l, w) :: es => if l = k then (k, v) :: es else (l, w) :: put k v es

def get? (k : κ) : Keyed κ α → Option α
  | [] => none
  | (l, w) :: es => if l = k then some w else get? k es

def keys (es : Keyed κ α) : List κ := es.map Prod.fst

/-- The entries with what stands under `k` changed by `f`. -/
def modify (k : κ) (f : α → α) : Keyed κ α → Keyed κ α
  | [] => []
  | (l, w) :: es => if l = k then (l, f w) :: es else (l, w) :: modify k f es

/-- All pairs put in one after the other. -/
def ofList (es : List (κ × α)) : Keyed κ α := es.foldl (fun acc e => put e.1 e.2 acc) []

theorem keys_put (k : κ) (v : α) (es : Keyed κ α) :
    keys (put k v es) = if k ∈ keys es then keys es else keys es ++ [k] := by
  induction es with
  | nil => simp [put, keys]
  | cons e es ih =>
    obtain ⟨l, w⟩ := e
    by_cases h : l = k
    · simp [put, keys, h]
    · have h' : k ≠ l := fun e => h e.symm
      simp only [put, h, if_false]
      simp only [keys, List.map_cons, List.mem_cons, h', false_or] at ih ⊢
      by_cases hk : k ∈ es.map Prod.fst <;> simp [ih, hk]

theorem nodup_keys_put {k : κ} {es : Keyed κ α} (v : α) (h : (keys es).Nodup) : (keys (put k v es)).Nodup := by
  rw [keys_put]
  split
  · exact h
  · rename_i hk
    refine List.nodup_append.mpr ⟨h, by simp, ?_⟩
    rintro l hl m hm rfl
    exact hk (List.mem_singleton.mp hm ▸ hl)

theorem nodup_keys_foldl_put {acc : Keyed κ α} (es : List (κ × α)) (h : (keys acc).Nodup) :
    (keys (es.foldl (fun acc e => put e.1 e.2 acc) acc)).Nodup := by
  induction es generalizing acc with
  | nil => exact h
  | cons e es ih =>
    rw [List.foldl_cons]
    exact ih (nodup_keys_put e.2 h)

theorem nodup_keys_ofList (es : List (κ × α)) : (keys (ofList es)).Nodup :=
  nodup_keys_foldl_put es List.nodup_nil

theorem mem_of_mem_put {k : κ} {v : α} {es : Keyed κ α} {e : κ × α} (h : e ∈ put k v es) :
    e = (k, v) ∨ e ∈ es := by
  induction es with
  | nil => exact Or.inl (List.mem_singleton.mp h)
  | cons f es ih =>
    unfold put at h
    split at h
    · exact (List.mem_cons.mp h).imp_right (List.mem_cons_of_mem f)
    · rcases List.mem_cons.mp h with rfl | h
      · exact Or.inr List.mem_cons_self
      · exact (ih h).imp_right (List.mem_cons_of_mem f)

theorem lookup_put_self (k : κ) (v : α) (es : Keyed κ α) : get? k (put k v es) = some v := by
  induction es with
  | nil => simp [put, get?]
  | cons e es ih =>
    obtain ⟨l, w⟩ := e
    by_cases h : l = k <;> simp [put, get?, h, ih]

theorem lookup_put_of_ne {k l : κ} (h : l ≠ k) (v : α) (es : Keyed κ α) :
    get? l (put k v es) = get? l es := by
  induction es with
  | nil => simp [put, get?, Ne.symm h]
  | cons e es ih =>
    obtain ⟨m, w⟩ := e
    by_cases hm : m = k
    · subst hm
      simp [put, get?, Ne.symm h]
    · simp [put, get?, hm, ih]

theorem keys_modify (k : κ) (f : α → α) (es : Keyed κ α) : keys (modify k f es) = keys es := by
  induction es with
  | nil => rfl
  | cons e es ih =>
    obtain ⟨l, w⟩ := e
    by_cases h : l = k
    · simp [modify, keys, h]
    · simpa [modify, keys, h] using ih

end Keyed

end CodeManifest
