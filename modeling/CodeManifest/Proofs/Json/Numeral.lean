import CodeManifest.Json.Write
import CodeManifest.Proofs.Json.Grammar
import Mathlib.Data.List.DropRight

namespace CodeManifest.Json

theorem allDigits_ofNat (n : Nat) : AllDigits (Text.ofNat n) := by
  intro c hc
  have hdigit := Nat.isDigit_of_mem_toDigits (by omega) (by omega) hc
  simp only [Char.isDigit, Bool.and_eq_true, decide_eq_true_eq] at hdigit
  simp only [Text.isDigit, Bool.and_eq_true, decide_eq_true_eq]
  exact hdigit

theorem ofNat_ne_nil (n : Nat) : Text.ofNat n ≠ [] := Nat.toDigits_ne_nil

/-- The last digit behind the others. -/
theorem ofNat_step {n : Nat} (h : 10 ≤ n) : Text.ofNat n = Text.ofNat (n / 10) ++ [(n % 10).digitChar] :=
  Nat.toDigits_of_base_le (by omega) h

theorem head?_ofNat {n : Nat} (h : 0 < n) : (Text.ofNat n).head? ≠ some '0' := by
  induction n using Nat.strong_induction_on with
  | _ n ih =>
    by_cases hlarge : 10 ≤ n
    · rw [ofNat_step hlarge, List.head?_append_of_ne_nil _ (ofNat_ne_nil _)]
      exact ih (n / 10) (by omega) (by omega)
    · have hsmall : ∀ k < 10, 0 < k → (Text.ofNat k).head? ≠ some '0' := by decide
      exact hsmall n (by omega) h

theorem isWhole_ofNat (n : Nat) : IsWhole (Text.ofNat n) := by
  rcases Nat.eq_zero_or_pos n with rfl | hpos
  · exact .zero
  · have hdigits := allDigits_ofNat n
    have hhead := head?_ofNat hpos
    cases ht : Text.ofNat n with
    | nil => exact absurd ht (ofNat_ne_nil n)
    | cons c t =>
      rw [ht] at hdigits hhead
      obtain ⟨hc, ht⟩ := List.forall_mem_cons.mp hdigits
      exact .digits hc (fun h => hhead (congrArg some h)) ht

theorem isNumber_of_isWhole {t : Text} (h : IsWhole t) : IsNumber t := by
  have hparts : IsNumber ([] ++ t ++ [] ++ []) := .parts (by simp) h .none .none
  simpa using hparts

theorem isNumber_ofInt (n : Int) : IsNumber (Text.ofInt n) := by
  cases n with
  | ofNat n => exact isNumber_of_isWhole (isWhole_ofNat n)
  | negSucc n =>
    have hparts : IsNumber (['-'] ++ Text.ofNat (n + 1) ++ [] ++ []) :=
      .parts (by simp) (isWhole_ofNat (n + 1)) .none .none
    simpa [Text.ofInt] using hparts

theorem scaled_pos {num : Nat} (h : 0 < num) (den : Nat) (e : Int) : 0 < (Double.scaled num den e).1 := by
  unfold Double.scaled
  split
  · exact Nat.mul_pos h (Nat.pow_pos (by omega))
  · exact h

/-- Nothing but a positive number lies above a positive bound. -/
private theorem pos_of_within {m lo hi down up d c : Nat} (hlo : 0 < lo) (hdown : 0 < down)
    (h : (if m % 2 = 0 then lo * down ≤ c * up * d && c * up * d ≤ hi * down
      else lo * down < c * up * d && c * up * d < hi * down : Bool) = true) : 0 < c := by
  have hbound : 0 < lo * down := Nat.mul_pos hlo hdown
  have hproduct : 0 < c * up * d := by
    split at h <;> simp only [Bool.and_eq_true, decide_eq_true_eq] at h <;> omega
  rcases Nat.eq_zero_or_pos c with rfl | hc
  · simp at hproduct
  · exact hc

theorem decimalWith_pos {count below m c : Nat} {e p : Int} (hm : 0 < m) (hbelow : below ≤ 2)
    (h : Double.decimalWith count below m e = some (c, p)) : 0 < c := by
  have hlow := scaled_pos (show 0 < 4 * m - below by omega) 1 (e - 2)
  have hdown (k : Nat) : 0 < Nat.pow 10 k := Nat.pow_pos (by omega)
  unfold Double.decimalWith at h
  dsimp only at h
  split at h
  · rename_i hq hq'
    split at h <;> cases h
    · exact pos_of_within hlow (hdown _) hq
    · exact pos_of_within hlow (hdown _) hq'
  · rename_i hq hq'
    cases h
    exact pos_of_within hlow (hdown _) hq
  · rename_i hq hq'
    cases h
    exact pos_of_within hlow (hdown _) hq'
  · cases h

theorem shortest_pos {m : Nat} (h : 0 < m) (e : Int) : 0 < (Double.shortest m e).1 := by
  unfold Double.shortest
  dsimp only
  have hbelow : (if (m = Nat.pow 2 52 && e > -1074 : Bool) = true then 1 else 2) ≤ 2 := by
    split <;> omega
  cases hfound : (List.range 17).findSome? _ with
  | none => exact h
  | some found =>
    obtain ⟨c, p⟩ := found
    obtain ⟨k, -, hk⟩ := List.exists_of_findSome?_eq_some hfound
    exact decimalWith_pos h hbelow hk

/-- The digits of a positive number up to the last that is not zero. -/
structure Significant (ds : Text) : Prop where
  digits : AllDigits ds
  head : ds.head? ≠ some '0'
  ne_nil : ds ≠ []

theorem significant_ofNat {n : Nat} (h : 0 < n) :
    Significant ((Text.ofNat n).reverse.dropWhile (· = '0')).reverse := by
  have hpre : ((Text.ofNat n).reverse.dropWhile (· = '0')).reverse <+: Text.ofNat n :=
    List.rdropWhile_prefix _ _
  have hne : ((Text.ofNat n).reverse.dropWhile (· = '0')).reverse ≠ [] := by
    intro hnil
    have hall := List.rdropWhile_eq_nil_iff.mp hnil
    cases ht : Text.ofNat n with
    | nil => exact ofNat_ne_nil n ht
    | cons c t =>
      have hc : c = '0' := by simpa using hall c (by simp [ht])
      exact head?_ofNat h (by rw [ht, hc]; rfl)
  refine ⟨fun c hc => allDigits_ofNat n c (hpre.subset hc), ?_, hne⟩
  obtain ⟨r, hr⟩ := hpre
  have hhead := head?_ofNat h
  rwa [← hr, List.head?_append_of_ne_nil _ hne] at hhead

namespace Significant

variable {ds : Text}

theorem isWhole_append {t : Text} (h : Significant ds) (ht : AllDigits t) : IsWhole (ds ++ t) := by
  obtain ⟨hdigits, hhead, hne⟩ := h
  cases ds with
  | nil => exact absurd rfl hne
  | cons c ds =>
    obtain ⟨hc, hds⟩ := List.forall_mem_cons.mp hdigits
    exact .digits hc (fun h => hhead (congrArg some h)) (List.forall_mem_append.mpr ⟨hds, ht⟩)

theorem take {n : Nat} (h : Significant ds) (hn : 0 < n) : Significant (ds.take n) := by
  obtain ⟨hdigits, hhead, hne⟩ := h
  obtain ⟨n, rfl⟩ := Nat.exists_eq_succ_of_ne_zero (Nat.ne_of_gt hn)
  cases ds with
  | nil => exact absurd rfl hne
  | cons c ds => exact ⟨fun x hx => hdigits x (List.mem_of_mem_take hx), hhead, by simp⟩

end Significant

theorem allDigits_zeros (n : Nat) : AllDigits (List.replicate n '0') := by
  intro c hc
  rw [List.eq_of_mem_replicate hc]
  rfl

theorem allDigits_padded (width n : Nat) : AllDigits (Text.padded width n) :=
  List.forall_mem_append.mpr ⟨allDigits_zeros _, allDigits_ofNat n⟩

theorem padded_ne_nil (width n : Nat) : Text.padded width n ≠ [] := by
  simp [Text.padded, ofNat_ne_nil]

section Rendering

variable {sign ds : Text} (hsign : sign ∈ [[], ['-']]) (hds : Significant ds)

include hsign hds

theorem isNumber_positional (point : Int) :
    IsNumber (sign ++
      (if point ≤ 0 then '0' :: '.' :: List.replicate (-point).toNat '0' ++ ds
      else if ds.length ≤ point.toNat then
        ds ++ List.replicate (point.toNat - ds.length) '0' ++ ['.', '0']
      else ds.take point.toNat ++ '.' :: ds.drop point.toNat)) := by
  split
  · have hfraction : IsFraction ('.' :: (List.replicate (-point).toNat '0' ++ ds)) :=
      .digits (by simp [hds.ne_nil]) (List.forall_mem_append.mpr ⟨allDigits_zeros _, hds.digits⟩)
    simpa using IsNumber.parts hsign .zero hfraction .none
  · rename_i hpoint
    split
    · have hfraction : IsFraction ['.', '0'] := .digits (by simp) (allDigits_zeros 1)
      have hwhole := hds.isWhole_append (allDigits_zeros (point.toNat - ds.length))
      simpa using IsNumber.parts hsign hwhole hfraction .none
    · rename_i hlength
      have hwhole := (hds.take (show 0 < point.toNat by omega)).isWhole_append (t := []) (by simp [AllDigits])
      have hrest : ds.drop point.toNat ≠ [] := by
        rw [Ne, List.drop_eq_nil_iff]
        omega
      have hfraction : IsFraction ('.' :: ds.drop point.toNat) :=
        .digits hrest fun c hc => hds.digits c (List.mem_of_mem_drop hc)
      simpa using IsNumber.parts hsign hwhole hfraction .none

theorem isNumber_scientific (x : Int) :
    IsNumber (sign ++ (ds.take 1 ++ (if ds.length ≤ 1 then [] else '.' :: ds.drop 1) ++
      'e' :: (if x < 0 then '-' else '+') :: Text.padded 2 x.natAbs)) := by
  have hwhole := (hds.take (show 0 < 1 by omega)).isWhole_append (t := []) (by simp [AllDigits])
  have hfraction : IsFraction (if ds.length ≤ 1 then [] else '.' :: ds.drop 1) := by
    split
    · exact .none
    · refine .digits ?_ fun c hc => hds.digits c (List.mem_of_mem_drop hc)
      rw [Ne, List.drop_eq_nil_iff]
      omega
  have hmark : [if x < 0 then '-' else '+'] ∈ [[], ['+'], ['-']] := by
    split <;> decide
  have hexponent : IsExponent ('e' :: [if x < 0 then '-' else '+'] ++ Text.padded 2 x.natAbs) :=
    .digits (by simp) hmark (padded_ne_nil 2 _) (allDigits_padded 2 _)
  simpa using IsNumber.parts hsign hwhole hfraction hexponent

end Rendering

theorem isNumber_render (s : Bool) (m : Nat) (e : Int) : IsNumber (Double.finite s m e).render := by
  have hsign : (if s then ['-'] else [] : Text) ∈ [[], ['-']] := by cases s <;> decide
  unfold Double.render
  dsimp only
  generalize (if s then ['-'] else [] : Text) = sign at hsign ⊢
  split
  · have hfraction : IsFraction ['.', '0'] := .digits (by simp) (allDigits_zeros 1)
    simpa using IsNumber.parts hsign .zero hfraction .none
  · rename_i hm
    have hds := significant_ofNat (shortest_pos (Nat.pos_of_ne_zero hm) e)
    split
    · exact isNumber_positional hsign hds _
    · exact isNumber_scientific hsign hds _

end CodeManifest.Json
