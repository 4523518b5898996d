import CodeManifest.Keyed
import CodeManifest.Proofs.Fresh
import Mathlib.Algebra.GroupWithZero.Nat
import Mathlib.Data.List.Induction

namespace CodeManifest.Keyed

variable {κ α : Type} [DecidableEq κ]

theorem keys_foldl_put (acc : Keyed κ α) (es : List (κ × α)) :
    keys (es.foldl (fun acc e => put e.1 e.2 acc) acc) =
      keys acc ++ fresh id (keys acc) (es.map Prod.fst) := by
  induction es generalizing acc with
  | nil => simp [fresh]
  | cons e es ih =>
    rw [List.foldl_cons, ih, keys_put, List.map_cons]
    by_cases he : e.1 ∈ keys acc
    · have hid : id e.1 ∈ keys acc := he
      rw [if_pos he, fresh_cons_of_mem hid]
    · have hid : id e.1 ∉ keys acc := he
      have hseen : ∀ k, k ∈ keys acc ++ [e.1] ↔ k ∈ id e.1 :: keys acc := by
        intro k
        simp only [id, List.mem_append, List.mem_cons, List.not_mem_nil, or_false]
        exact or_comm
      rw [if_neg he, fresh_cons_of_notMem hid, List.append_assoc, fresh_congr id hseen]
      rfl

/-- A key stands where it came up first. -/
theorem keys_ofList (es : List (κ × α)) : keys (ofList es) = fresh id [] (es.map Prod.fst) :=
  keys_foldl_put [] es

theorem ofList_append_singleton (es : List (κ × α)) (e : κ × α) :
    ofList (es ++ [e]) = put e.1 e.2 (ofList es) := by
  rw [ofList, List.foldl_append]
  rfl

/-- A key that is put in last stands behind the others, unless it is one of them. -/
theorem keys_put_of_fresh {es : Keyed κ α} {ks : List κ} (h : keys es = fresh id [] ks) (k : κ) (v : α) :
    keys (put k v es) = fresh id [] (ks ++ [k]) := by
  have hfresh := fresh_append id [] ks [k]
  rw [List.map_id, List.append_nil] at hfresh
  rw [keys_put, h, hfresh]
  by_cases hseen : id k ∈ fresh id [] ks
  · rw [fresh_cons_of_mem hseen, fresh, List.append_nil]
    exact if_pos hseen
  · rw [fresh_cons_of_notMem hseen]
    exact if_neg hseen

/-- What is put in counts in a sum in the place of what stood under its key. -/
theorem sum_put (f : α → Nat) (k : κ) (v : α) (es : Keyed κ α) :
    ((put k v es).map fun e => f e.2).sum + ((get? k es).map f).getD 0 = (es.map fun e => f e.2).sum + f v := by
  induction es with
  | nil => simp [put, get?]
  | cons e es ih =>
    obtain ⟨l, w⟩ := e
    by_cases hl : l = k
    · simp only [put, get?, if_pos hl, List.map_cons, List.sum_cons, Option.map_some, Option.getD_some]
      omega
    · simp only [put, get?, if_neg hl, List.map_cons, List.sum_cons]
      omega

/-- The last value that is put in under a key counts. -/
theorem last_of_get?_ofList {es : List (κ × α)} {k : κ} {v : α}
    (h : get? k (ofList es) = some v) :
    ∃ before after, es = before ++ (k, v) :: after ∧ ∀ e ∈ after, e.1 ≠ k := by
  induction es using List.reverseRecOn with
  | nil => cases h
  | append_singleton es e ih =>
    obtain ⟨l, w⟩ := e
    rw [ofList_append_singleton] at h
    by_cases hl : l = k
    · subst hl
      rw [lookup_put_self] at h
      obtain rfl : w = v := Option.some.inj h
      exact ⟨es, [], rfl, by simp⟩
    · rw [lookup_put_of_ne (Ne.symm hl)] at h
      obtain ⟨before, after, rfl, hlast⟩ := ih h
      refine ⟨before, after ++ [(l, w)], by simp, ?_⟩
      intro x hx
      rcases List.mem_append.mp hx with hx | hx
      · exact hlast x hx
      · rw [List.mem_singleton.mp hx]
        exact hl

/-- Nothing is there but what was put in. -/
theorem mem_of_mem_ofList {es : List (κ × α)} {e : κ × α} (h : e ∈ ofList es) : e ∈ es := by
  induction es using List.reverseRecOn with
  | nil => cases h
  | append_singleton es f ih =>
    rw [ofList_append_singleton] at h
    rcases mem_of_mem_put h with rfl | h
    · simp
    · exact List.mem_append_left [f] (ih h)

theorem mem_of_get? {es : Keyed κ α} {k : κ} {v : α} (h : get? k es = some v) : (k, v) ∈ es := by
  induction es with
  | nil => cases h
  | cons e es ih =>
    obtain ⟨l, w⟩ := e
    unfold get? at h
    split at h
    · rename_i hl
      rw [hl, Option.some.inj h]
      exact List.mem_cons_self
    · exact List.mem_cons_of_mem _ (ih h)

theorem get?_of_mem {es : Keyed κ α} (h : (keys es).Nodup) {k : κ} {v : α} (hm : (k, v) ∈ es) :
    get? k es = some v := by
  induction es with
  | nil => cases hm
  | cons e es ih =>
    obtain ⟨l, w⟩ := e
    obtain ⟨hl, hes⟩ := List.nodup_cons.mp h
    rcases List.mem_cons.mp hm with he | hm
    · obtain ⟨rfl, rfl⟩ := Prod.mk.inj he
      simp [get?]
    · have hk : k ∈ keys es := List.mem_map_of_mem hm
      have hne : l ≠ k := fun he => hl (he ▸ hk)
      rw [get?, if_neg hne]
      exact ih hes hm

/-- Where keys are distinct, the keys and what stands under each are all there is. -/
theorem eq_map_get? {es : Keyed κ α} (h : (keys es).Nodup) (d : α) :
    es = (keys es).map fun k => (k, (get? k es).getD d) := by
  rw [keys, List.map_map]
  refine (List.map_id es).symm.trans (List.map_congr_left ?_)
  rintro ⟨k, v⟩ he
  simp [get?_of_mem h he]

/-- Where keys are distinct, an entry is the only one with its key. -/
theorem filter_of_mem {es : Keyed κ α} (h : (keys es).Nodup) {e : κ × α} (he : e ∈ es) :
    es.filter (fun f => f.1 = e.1) = [e] := by
  induction es with
  | nil => cases he
  | cons f es ih =>
    obtain ⟨hf, hes⟩ := List.nodup_cons.mp h
    rcases List.mem_cons.mp he with rfl | he
    · have hother : ∀ g ∈ es, g.1 ≠ e.1 := by
        intro g hg heq
        exact hf (heq ▸ List.mem_map_of_mem hg)
      simpa using hother
    · have hmem : e.1 ∈ keys es := List.mem_map_of_mem he
      have hne : f.1 ≠ e.1 := fun heq => hf (heq ▸ hmem)
      rw [List.filter_cons_of_neg (by simpa using hne)]
      exact ih hes he

/-- Where keys are distinct, a change reaches every entry with its key. -/
theorem modify_eq_map {es : Keyed κ α} (h : (keys es).Nodup) (k : κ) (f : α → α) :
    modify k f es = es.map fun e => (e.1, if e.1 = k then f e.2 else e.2) := by
  induction es with
  | nil => rfl
  | cons e es ih =>
    obtain ⟨l, w⟩ := e
    obtain ⟨hl, hes⟩ := List.nodup_cons.mp h
    by_cases hk : l = k
    · subst hk
      have hid : es.map (fun e => (e.1, if e.1 = l then f e.2 else e.2)) = es := by
        rw [List.map_congr_left (g := id), List.map_id]
        intro e he
        have hmem : e.1 ∈ keys es := List.mem_map_of_mem he
        have hne : e.1 ≠ l := fun heq => hl (heq ▸ hmem)
        simp [hne]
      simp [modify, hid]
    · rw [modify, if_neg hk, ih hes]
      simp [hk]

/-- What items put in stands in the order in which its keys come up first. -/
theorem exists_positions_keys {σ : Type} {f : σ → Option (κ × α)} {key? : σ → Option κ} {as : List σ}
    (hkey : ∀ a ∈ as, (f a).map Prod.fst = key? a) :
    ∃ positions : List Nat, positions.Pairwise (· < ·) ∧
      List.Forall₂ (FirstAt key? id as) positions (keys (ofList (as.filterMap f))) := by
  obtain ⟨positions, hlt, hall⟩ := fresh_positions key? id [] as
  refine ⟨positions, hlt, ?_⟩
  rw [keys_ofList, List.map_filterMap, List.filterMap_congr hkey]
  exact hall.imp fun i k h => h.1

theorem mem_keys_ofList_filterMap {σ : Type} {f : σ → Option (κ × α)} {key? : σ → Option κ} {as : List σ}
    (hkey : ∀ a ∈ as, (f a).map Prod.fst = key? a) {k : κ} :
    k ∈ keys (ofList (as.filterMap f)) ↔ ∃ a ∈ as, key? a = some k := by
  have hfresh := mem_keys_fresh id [] (as.filterMap key?) k
  rw [List.map_id, List.map_id] at hfresh
  rw [keys_ofList, List.map_filterMap, List.filterMap_congr hkey, hfresh, List.mem_filterMap]
  exact and_iff_left List.not_mem_nil

/-- The last item with the key of an entry put it in. -/
theorem exists_last_of_mem_ofList {σ : Type} {f : σ → Option (κ × α)} {key? : σ → Option κ} {as : List σ}
    (hkey : ∀ a ∈ as, (f a).map Prod.fst = key? a) {e : κ × α} (he : e ∈ ofList (as.filterMap f)) :
    ∃ before a after, as = before ++ a :: after ∧ f a = some e ∧ ∀ b ∈ after, key? b ≠ some e.1 := by
  have hget := get?_of_mem (nodup_keys_ofList _) he
  obtain ⟨before, after, hsplit, hlast⟩ := last_of_get?_ofList hget
  obtain ⟨front, back, has, -, hback⟩ := List.filterMap_eq_append_iff.mp hsplit
  obtain ⟨skipped, a, rest, rfl, -, ha, hrest⟩ := List.filterMap_eq_cons_iff.mp hback
  refine ⟨front ++ skipped, a, rest, by rw [has, List.append_assoc], ha, ?_⟩
  intro b hb hk
  have hmem : b ∈ as := by
    rw [has]
    simp [hb]
  rw [← hkey b hmem] at hk
  obtain ⟨e', he', hke⟩ := Option.map_eq_some_iff.mp hk
  have hafter : e' ∈ after := by
    rw [← hrest]
    exact List.mem_filterMap.mpr ⟨b, hb, he'⟩
  exact hlast e' hafter hke

end CodeManifest.Keyed
