import CodeManifest.Json.Read
import Mathlib.Tactic.Common

namespace CodeManifest.Json

def AllDigits (t : Text) : Prop := ∀ c ∈ t, Text.isDigit c = true

/-- No zero leads unless it stands alone. -/
inductive IsWhole : Text → Prop
  | zero : IsWhole ['0']
  | digits {c : Char} {t : Text} (hc : Text.isDigit c = true) (hzero : c ≠ '0') (ht : AllDigits t) :
    IsWhole (c :: t)

inductive IsFraction : Text → Prop
  | none : IsFraction []
  | digits {t : Text} (hne : t ≠ []) (ht : AllDigits t) : IsFraction ('.' :: t)

inductive IsExponent : Text → Prop
  | none : IsExponent []
  | digits {e : Char} {sign t : Text} (he : e ∈ ['e', 'E']) (hsign : sign ∈ [[], ['+'], ['-']])
    (hne : t ≠ []) (ht : AllDigits t) : IsExponent (e :: sign ++ t)

inductive IsNumber : Text → Prop
  | parts {sign whole fraction exponent : Text} (hsign : sign ∈ [[], ['-']]) (hwhole : IsWhole whole)
    (hfraction : IsFraction fraction) (hexponent : IsExponent exponent) :
    IsNumber (sign ++ whole ++ fraction ++ exponent)

/-- One character between quotation marks. -/
inductive IsUnit : Text → Prop
  | plain {c : Char} (hcontrol : 32 ≤ c.toNat) (hquote : c ≠ '"') (hbackslash : c ≠ '\\') : IsUnit [c]
  | escaped {c : Char} (hc : c ∈ ['"', '\\', '/', 'b', 'f', 'n', 'r', 't']) : IsUnit ['\\', c]
  | code {ds : Text} (hlength : ds.length = 4) (hhex : ∀ d ∈ ds, (hexDigit? d).isSome) :
    IsUnit ('\\' :: 'u' :: ds)

inductive IsString : Text → Prop
  | units {us : List Text} (h : ∀ u ∈ us, IsUnit u) : IsString ('"' :: us.flatten ++ ['"'])

def IsBlanks (t : Text) : Prop := ∀ c ∈ t, isBlank c = true

mutual

inductive IsValue : Text → Prop
  | word {t : Text} (h : t ∈ ["null".toList, "true".toList, "false".toList]) : IsValue t
  | number {t : Text} (h : IsNumber t) : IsValue t
  | string {t : Text} (h : IsString t) : IsValue t
  | emptyList {w : Text} (hw : IsBlanks w) : IsValue ('[' :: w ++ [']'])
  | list {t : Text} (h : IsItems t) : IsValue ('[' :: t ++ [']'])
  | emptyObject {w : Text} (hw : IsBlanks w) : IsValue ('{' :: w ++ ['}'])
  | object {t : Text} (h : IsMembers t) : IsValue ('{' :: t ++ ['}'])

/-- A value with blanks around it. -/
inductive IsElement : Text → Prop
  | padded {w t w' : Text} (hw : IsBlanks w) (ht : IsValue t) (hw' : IsBlanks w') :
    IsElement (w ++ t ++ w')

inductive IsItems : Text → Prop
  | last {t : Text} (h : IsElement t) : IsItems t
  | more {t r : Text} (h : IsElement t) (hr : IsItems r) : IsItems (t ++ ',' :: r)

inductive IsMember : Text → Prop
  | named {w k w' t : Text} (hw : IsBlanks w) (hk : IsString k) (hw' : IsBlanks w') (h : IsElement t) :
    IsMember (w ++ k ++ w' ++ ':' :: t)

inductive IsMembers : Text → Prop
  | last {t : Text} (h : IsMember t) : IsMembers t
  | more {t r : Text} (h : IsMember t) (hr : IsMembers r) : IsMembers (t ++ ',' :: r)

end

/-- A text that holds one value, with nothing but blanks around it. -/
def IsDocument (t : Text) : Prop := IsElement t

/-- Where in a text a character stands. -/
inductive Region where
  | bare
  | quoted
  /-- behind a backslash between quotation marks -/
  | escaped

/-- The characters outside of strings. -/
def outside : Region → Text → Text
  | _, [] => []
  | .bare, c :: t => if c = '"' then outside .quoted t else c :: outside .bare t
  | .quoted, c :: t =>
    if c = '"' then outside .bare t else if c = '\\' then outside .escaped t else outside .quoted t
  | .escaped, _ :: t => outside .quoted t

/-- Every string in the text ends in it. -/
def IsClosed (t : Text) : Prop := ∀ r, outside .bare (t ++ r) = outside .bare t ++ outside .bare r

namespace IsClosed

variable {s t : Text}

theorem nil : IsClosed [] := fun _ => rfl

theorem append (hs : IsClosed s) (ht : IsClosed t) : IsClosed (s ++ t) := by
  intro r
  rw [List.append_assoc, hs, ht, hs, List.append_assoc]

theorem singleton {c : Char} (hc : c ≠ '"') : IsClosed [c] := by
  intro r
  simp [outside, hc]

theorem cons {c : Char} (hc : c ≠ '"') (ht : IsClosed t) : IsClosed (c :: t) := (singleton hc).append ht

theorem of_forall (h : ∀ c ∈ t, c ≠ '"') : IsClosed t := by
  induction t with
  | nil => exact nil
  | cons c t ih =>
    obtain ⟨hc, ht⟩ := List.forall_mem_cons.mp h
    exact cons hc (ih ht)

end IsClosed

theorem outside_of_forall {t : Text} (h : ∀ c ∈ t, c ≠ '"') : outside .bare t = t := by
  induction t with
  | nil => rfl
  | cons c t ih =>
    obtain ⟨hc, ht⟩ := List.forall_mem_cons.mp h
    rw [outside, if_neg hc, ih ht]

theorem outside_unit {u : Text} (h : IsUnit u) (r : Text) :
    outside .quoted (u ++ r) = outside .quoted r := by
  cases h with
  | plain hcontrol hquote hbackslash => simp [outside, hquote, hbackslash]
  | escaped hc => simp [outside]
  | @code ds hlength hhex =>
    have hplain (d : Char) (hd : d ∈ ds) : d ≠ '"' ∧ d ≠ '\\' := by
      have hd := hhex d hd
      constructor
      · rintro rfl
        exact absurd hd (by decide)
      · rintro rfl
        exact absurd hd (by decide)
    have hrest (es : Text) (hes : ∀ d ∈ es, d ≠ '"' ∧ d ≠ '\\') :
        outside .quoted (es ++ r) = outside .quoted r := by
      induction es with
      | nil => rfl
      | cons d es ih =>
        obtain ⟨hd, hes⟩ := List.forall_mem_cons.mp hes
        rw [List.cons_append, outside, if_neg hd.1, if_neg hd.2, ih hes]
    have hu : ('u' : Char) ≠ '"' := by decide
    simp only [List.cons_append, outside]
    rw [if_neg (by decide), if_pos trivial]
    exact hrest ds hplain

theorem outside_string {t : Text} (h : IsString t) (r : Text) :
    outside .bare (t ++ r) = outside .bare r := by
  obtain ⟨hus⟩ := h
  rename_i us
  have hinside : outside .quoted (us.flatten ++ '"' :: r) = outside .bare r := by
    induction us with
    | nil => simp [outside]
    | cons u us ih =>
      obtain ⟨hu, hus⟩ := List.forall_mem_cons.mp hus
      rw [List.flatten_cons, List.append_assoc, outside_unit hu, ih hus]
  simpa [outside] using hinside

theorem outside_string_self {t : Text} (h : IsString t) : outside .bare t = [] := by
  have hnil := outside_string h []
  rwa [List.append_nil] at hnil

theorem IsString.isClosed {t : Text} (h : IsString t) : IsClosed t := by
  intro r
  rw [outside_string h, outside_string_self h, List.nil_append]

/-- May the character stand outside of strings? -/
def isBare (c : Char) : Bool :=
  Text.isDigit c || isBlank c || "+-.eEnultrfas[]{},:".toList.contains c

/-- Every string in the text ends in it, and outside of strings stands what may stand there. -/
structure IsSound (t : Text) : Prop where
  closed : IsClosed t
  bare : ∀ c ∈ outside .bare t, isBare c = true

namespace IsSound

variable {s t : Text}

theorem append (hs : IsSound s) (ht : IsSound t) : IsSound (s ++ t) where
  closed := hs.closed.append ht.closed
  bare := by
    rw [hs.closed]
    exact List.forall_mem_append.mpr ⟨hs.bare, ht.bare⟩

theorem of_bare (h : ∀ c ∈ t, isBare c = true) : IsSound t := by
  have hquote : ∀ c ∈ t, c ≠ '"' := by
    rintro c hc rfl
    exact absurd (h _ hc) (by decide)
  refine ⟨.of_forall hquote, ?_⟩
  rw [outside_of_forall hquote]
  exact h

theorem cons {c : Char} (hc : isBare c = true) (ht : IsSound t) : IsSound (c :: t) :=
  (of_bare (t := [c]) (by simpa using hc)).append ht

theorem string (h : IsString t) : IsSound t where
  closed := h.isClosed
  bare := by
    rw [outside_string_self h]
    simp

theorem blanks (h : IsBlanks t) : IsSound t := by
  refine of_bare fun c hc => ?_
  simp [isBare, h c hc]

end IsSound

theorem isBare_of_allDigits {t : Text} (h : AllDigits t) : ∀ c ∈ t, isBare c = true := by
  intro c hc
  simp [isBare, h c hc]

theorem IsWhole.isBare {t : Text} (h : IsWhole t) : ∀ c ∈ t, isBare c = true := by
  cases h with
  | zero => exact List.forall_mem_singleton.mpr (by decide)
  | digits hc hzero ht => exact isBare_of_allDigits (List.forall_mem_cons.mpr ⟨hc, ht⟩)

theorem IsFraction.isBare {t : Text} (h : IsFraction t) : ∀ c ∈ t, isBare c = true := by
  cases h with
  | none => simp
  | digits hne ht => exact List.forall_mem_cons.mpr ⟨by decide, isBare_of_allDigits ht⟩

theorem IsExponent.isBare {t : Text} (h : IsExponent t) : ∀ c ∈ t, isBare c = true := by
  cases h with
  | none => simp
  | @digits e sign t he hsign hne ht =>
    have hmark : ['e', 'E'].all Json.isBare = true := by decide
    have hsigns : ∀ s ∈ [[], ['+'], ['-']], s.all Json.isBare = true := by decide
    exact List.forall_mem_append.mpr ⟨List.forall_mem_cons.mpr
      ⟨List.all_eq_true.mp hmark e he, List.all_eq_true.mp (hsigns sign hsign)⟩, isBare_of_allDigits ht⟩

theorem IsNumber.isSound {t : Text} (h : IsNumber t) : IsSound t := by
  obtain ⟨hsign, hwhole, hfraction, hexponent⟩ := h
  rename_i sign _ _ _
  have hsigns : ∀ s ∈ [[], ['-']], s.all Json.isBare = true := by decide
  have hfront := List.forall_mem_append.mpr ⟨List.all_eq_true.mp (hsigns sign hsign), hwhole.isBare⟩
  have hnumber := List.forall_mem_append.mpr ⟨hfront, hfraction.isBare⟩
  exact .of_bare (List.forall_mem_append.mpr ⟨hnumber, hexponent.isBare⟩)

/-- Brackets around a sound text. -/
theorem IsSound.between {start stop : Char} {t : Text} (hstart : isBare start = true)
    (hstop : isBare stop = true) (h : IsSound t) : IsSound (start :: t ++ [stop]) :=
  (IsSound.cons hstart h).append (.of_bare (by simpa using hstop))

mutual

theorem IsValue.isSound {t : Text} : IsValue t → IsSound t
  | .word h => by
    have hwords : ∀ w ∈ ["null".toList, "true".toList, "false".toList], w.all isBare = true := by decide
    exact .of_bare (List.all_eq_true.mp (hwords t h))
  | .number h => h.isSound
  | .string h => .string h
  | .emptyList hw => .between (by decide) (by decide) (.blanks hw)
  | .list h => .between (by decide) (by decide) h.isSound
  | .emptyObject hw => .between (by decide) (by decide) (.blanks hw)
  | .object h => .between (by decide) (by decide) h.isSound

theorem IsElement.isSound {t : Text} : IsElement t → IsSound t
  | .padded hw ht hw' => ((IsSound.blanks hw).append ht.isSound).append (.blanks hw')

theorem IsItems.isSound {t : Text} : IsItems t → IsSound t
  | .last h => h.isSound
  | .more h hr => h.isSound.append (.cons (by decide) hr.isSound)

theorem IsMember.isSound {t : Text} : IsMember t → IsSound t
  | .named hw hk hw' h =>
    (((IsSound.blanks hw).append (.string hk)).append (.blanks hw')).append (.cons (by decide) h.isSound)

theorem IsMembers.isSound {t : Text} : IsMembers t → IsSound t
  | .last h => h.isSound
  | .more h hr => h.isSound.append (.cons (by decide) hr.isSound)

end

theorem IsDocument.isSound {t : Text} (h : IsDocument t) : IsSound t := IsElement.isSound h

end CodeManifest.Json
