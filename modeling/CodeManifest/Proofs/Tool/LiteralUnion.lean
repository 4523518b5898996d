import CodeManifest.Proofs.Tool.Kind

namespace CodeManifest

namespace Tool

open TypeText

/-- A value in quotes, with the blanks around it. -/
structure Literal where
  value : Text
  quote : Char
  before : Text := []
  after : Text := []
  ne_nil : value ≠ []
  quote_mem : quote = '"' ∨ quote = '\''
  quote_notMem : quote ∉ value
  before_blank : ∀ c ∈ before, Text.isBlank c = true := by simp [Text.isBlank]
  after_blank : ∀ c ∈ after, Text.isBlank c = true := by simp [Text.isBlank]

namespace Literal

def quoted (l : Literal) : Text := l.quote :: (l.value ++ [l.quote])

def text (l : Literal) : Text := l.before ++ (l.quoted ++ l.after)

end Literal

/-- String literals with bars between them, and perhaps one in front. -/
structure LiteralUnion where
  bar : Bool
  literals : List Literal
  ne_nil : literals ≠ []

namespace LiteralUnion

def text (u : LiteralUnion) : Text :=
  (if u.bar then ['|'] else []) ++ Text.join "|" (u.literals.map Literal.text)

def values (u : LiteralUnion) : List Text := u.literals.map Literal.value

/-- The form of a type that is a choice between the values. -/
def info (u : LiteralUnion) : TypeInfo :=
  ⟨"string", some ("One of: ".toList ++ Text.join ", " u.values), some u.values⟩

end LiteralUnion

theorem Literal.isBlank_quote (l : Literal) : Text.isBlank l.quote = false := by
  rcases l.quote_mem with h | h <;> rw [h] <;> rfl

theorem Literal.quote_ne_bar (l : Literal) : l.quote ≠ '|' := by
  rcases l.quote_mem with h | h <;> rw [h] <;> decide

/-- A literal is skipped exactly if there is something between two equal quotes. -/
theorem afterQuoted?_eq_some_iff {q : Char} {t r : Text} :
    afterQuoted? q t = some r ↔ ∃ v, v ≠ [] ∧ q ∉ v ∧ t = q :: (v ++ q :: r) := by
  constructor
  · intro h
    unfold afterQuoted? at h
    split at h
    · cases h
    · next u hu =>
      split at h
      · cases h
      · next hhead =>
        have hdrop := Text.dropStart?_eq_some_iff.mp h
        have hinside : u = u.takeWhile (· ≠ q) ++ q :: r := by
          calc u = u.takeWhile (· ≠ q) ++ u.dropWhile (· ≠ q) := List.takeWhile_append_dropWhile.symm
            _ = u.takeWhile (· ≠ q) ++ q :: r := by rw [hdrop, List.singleton_append]
        refine ⟨u.takeWhile (· ≠ q), ?_, fun hq => by simpa using List.mem_takeWhile_imp hq, ?_⟩
        · intro hempty
          rw [hempty] at hinside
          exact hhead (by rw [hinside]; rfl)
        · rw [← hinside, Text.dropStart?_eq_some_iff.mp hu, List.singleton_append]
  · rintro ⟨v, hne, hq, rfl⟩
    have hfront : Text.dropStart? [q] (q :: (v ++ q :: r)) = some (v ++ q :: r) := by simp [Text.dropStart?]
    have hhead : (v ++ q :: r).head? ≠ some q := by
      obtain ⟨c, w, rfl⟩ := List.exists_cons_of_ne_nil hne
      intro hc
      exact hq (by simp [Option.some.inj hc])
    have hdrop : (v ++ q :: r).dropWhile (· ≠ q) = q :: r :=
      Text.dropWhile_append (fun c hc => decide_eq_true fun he => hq (he ▸ hc)) (by simp)
    rw [afterQuoted?, hfront]
    simp only [if_neg hhead, hdrop]
    simp [Text.dropStart?]

/-- The value of a literal is what stands between its quotes. -/
theorem quoted?_eq_some_iff {q : Char} {t v r : Text} :
    quoted? q t = some (v, r) ↔ v ≠ [] ∧ q ∉ v ∧ t = q :: (v ++ q :: r) := by
  constructor
  · intro h
    cases t with
    | nil => cases h
    | cons c t =>
      simp only [quoted?] at h
      split at h
      · next hc =>
        subst hc
        split at h
        · next w ws d r' htake hdrop =>
          obtain ⟨rfl, rfl⟩ := Prod.mk.inj (Option.some.inj h)
          have hd : d = c := by
            have hhead := List.head?_dropWhile_not (fun x => decide (x ≠ c)) t
            rw [hdrop] at hhead
            simpa using hhead
          have hq : c ∉ w :: ws := by
            rw [← htake]
            exact fun hmem => by simpa using List.mem_takeWhile_imp hmem
          refine ⟨List.cons_ne_nil w ws, hq, congrArg (c :: ·) ?_⟩
          calc t = t.takeWhile (· ≠ c) ++ t.dropWhile (· ≠ c) := List.takeWhile_append_dropWhile.symm
            _ = (w :: ws) ++ c :: r' := by rw [htake, hdrop, hd]
        · cases h
      · cases h
  · rintro ⟨hne, hq, rfl⟩
    have hinside : ∀ c ∈ v, decide (c ≠ q) = true := fun c hc => decide_eq_true fun he => hq (he ▸ hc)
    have htake : (v ++ q :: r).takeWhile (· ≠ q) = v := Text.takeWhile_append hinside (by simp)
    have hdrop : (v ++ q :: r).dropWhile (· ≠ q) = q :: r := Text.dropWhile_append hinside (by simp)
    obtain ⟨c, w, rfl⟩ := List.exists_cons_of_ne_nil hne
    simp only [quoted?, htake, hdrop, if_pos]

/-- Neither quote begins with the other. -/
theorem afterQuoted?_eq_none {q c : Char} (h : c ≠ q) (t : Text) : afterQuoted? q (c :: t) = none := by
  simp [afterQuoted?, Text.dropStart?, h.symm]

theorem quoted?_eq_none {q c : Char} (h : c ≠ q) (t : Text) : quoted? q (c :: t) = none := by
  simp [quoted?, h]

theorem Literal.quoted_append (l : Literal) (r : Text) : l.quoted ++ r = l.quote :: (l.value ++ l.quote :: r) := by
  simp [quoted]

theorem Literal.afterLiteral?_quoted (l : Literal) (r : Text) : afterLiteral? (l.quoted ++ r) = some r := by
  have hskip : afterQuoted? l.quote (l.quoted ++ r) = some r :=
    afterQuoted?_eq_some_iff.mpr ⟨l.value, l.ne_nil, l.quote_notMem, l.quoted_append r⟩
  rcases l.quote_mem with h | h
  · rw [h] at hskip
    rw [afterLiteral?, hskip]
    rfl
  · have hdouble : afterQuoted? '"' (l.quoted ++ r) = none := by
      rw [l.quoted_append, h]
      exact afterQuoted?_eq_none (by decide) _
    rw [h] at hskip
    rw [afterLiteral?, hdouble]
    exact hskip

theorem Literal.value?_quoted (l : Literal) (r : Text) : value? (l.quoted ++ r) = some (l.value, r) := by
  have hread : quoted? l.quote (l.quoted ++ r) = some (l.value, r) :=
    quoted?_eq_some_iff.mpr ⟨l.ne_nil, l.quote_notMem, l.quoted_append r⟩
  rcases l.quote_mem with h | h
  · rw [h] at hread
    rw [value?, hread]
    rfl
  · have hdouble : quoted? '"' (l.quoted ++ r) = none := by
      rw [l.quoted_append, h]
      exact quoted?_eq_none (by decide) _
    rw [h] at hread
    rw [value?, hdouble]
    exact hread

theorem exists_of_afterLiteral? {t r : Text} (h : afterLiteral? t = some r) : ∃ l : Literal, t = l.quoted ++ r := by
  have hliteral {q : Char} (hq : q = '"' ∨ q = '\'') (h : afterQuoted? q t = some r) :
      ∃ l : Literal, t = l.quoted ++ r := by
    obtain ⟨v, hne, hnot, rfl⟩ := afterQuoted?_eq_some_iff.mp h
    have hblank : ∀ c ∈ ([] : Text), Text.isBlank c = true := List.forall_mem_nil _
    exact ⟨⟨v, q, [], [], hne, hq, hnot, hblank, hblank⟩, by simp [Literal.quoted]⟩
  rw [afterLiteral?, Option.orElse_eq_or, Option.or_eq_some_iff] at h
  obtain h | ⟨-, h⟩ := h
  · exact hliteral (.inl rfl) h
  · exact hliteral (.inr rfl) h

/-- No literal begins or ends in the text. -/
def IsQuoteless (t : Text) : Prop := ∀ c ∈ t, c ≠ '"' ∧ c ≠ '\''

theorem isQuoteless_of_blank {b : Text} (h : ∀ c ∈ b, Text.isBlank c = true) : IsQuoteless b := by
  intro c hc
  have hblank := h c hc
  constructor
  · rintro rfl
    exact absurd hblank (by decide)
  · rintro rfl
    exact absurd hblank (by decide)

theorem literals_of_value? {t v r : Text} (h : value? t = some (v, r)) : literals t = v :: literals r := by
  rw [literals]
  split
  · next hsome =>
    obtain ⟨rfl, rfl⟩ := Prod.mk.inj (Option.some.inj (h.symm.trans hsome))
    rfl
  · next hnone =>
    rw [h] at hnone
    cases hnone

theorem literals_of_none {c : Char} {t : Text} (h : value? (c :: t) = none) : literals (c :: t) = literals t := by
  rw [literals]
  split
  · next hsome =>
    rw [h] at hsome
    cases hsome
  · rfl

theorem literals_nil : literals [] = [] := by
  rw [literals]
  rfl

theorem literals_quoteless_append {b : Text} (hb : IsQuoteless b) (t : Text) : literals (b ++ t) = literals t := by
  induction b with
  | nil => rfl
  | cons c b ih =>
    obtain ⟨hdouble, hsingle⟩ := hb c List.mem_cons_self
    have hnone : value? (c :: (b ++ t)) = none := by
      rw [value?, quoted?_eq_none hdouble, quoted?_eq_none hsingle]
      rfl
    rw [List.cons_append, literals_of_none hnone]
    exact ih fun x hx => hb x (List.mem_cons_of_mem c hx)

/-- A literal does not end in a text without its quote. -/
theorem quoted?_append {q : Char} {b : Text} (hb : q ∉ b) (t : Text) :
    quoted? q (t ++ b) = (quoted? q t).map fun p => (p.1, p.2 ++ b) := by
  cases h : quoted? q t with
  | some p =>
    obtain ⟨hne, hq, rfl⟩ := quoted?_eq_some_iff.mp h
    exact quoted?_eq_some_iff.mpr ⟨hne, hq, by simp⟩
  | none =>
    cases happend : quoted? q (t ++ b) with
    | none => rfl
    | some p =>
      obtain ⟨hne, hq, hsplit⟩ := quoted?_eq_some_iff.mp happend
      have hends : t ++ b = (q :: (p.1 ++ [q])) ++ p.2 := by simpa using hsplit
      rcases List.append_eq_append_iff.mp hends with ⟨s, hs, hbs⟩ | ⟨s, rfl, -⟩
      · -- The last quote would stand behind `t`, unless the literal is the whole of it.
        rcases List.eq_nil_or_concat s with rfl | ⟨s, c, rfl⟩
        · have ht : t = q :: (p.1 ++ q :: []) := by simpa using hs.symm
          rw [quoted?_eq_some_iff.mpr ⟨hne, hq, ht⟩] at h
          cases h
        · have hc : q = c := by
            have hlast := congrArg List.getLast? hs
            rw [← List.cons_append, List.getLast?_concat, List.concat_eq_append, ← List.append_assoc,
              List.getLast?_concat] at hlast
            exact Option.some.inj hlast
          exact absurd (by simp [hbs, hc]) hb
      · have ht : quoted? q ((q :: (p.1 ++ [q])) ++ s) = some (p.1, s) :=
          quoted?_eq_some_iff.mpr ⟨hne, hq, by simp⟩
        rw [ht] at h
        cases h

theorem value?_append {b : Text} (hb : IsQuoteless b) (t : Text) :
    value? (t ++ b) = (value? t).map fun p => (p.1, p.2 ++ b) := by
  have hdouble : '"' ∉ b := fun h => (hb _ h).1 rfl
  have hsingle : '\'' ∉ b := fun h => (hb _ h).2 rfl
  rw [value?, value?, quoted?_append hdouble, quoted?_append hsingle]
  cases quoted? '"' t <;> rfl

theorem literals_append_quoteless {b : Text} (hb : IsQuoteless b) (t : Text) : literals (t ++ b) = literals t := by
  fun_induction literals t with
  | case1 t v r hvalue ih =>
    have happend : value? (t ++ b) = some (v, r ++ b) := by
      rw [value?_append hb, hvalue]
      rfl
    rw [literals_of_value? happend, ih]
  | case2 hnone =>
    have hrest := literals_quoteless_append hb []
    rwa [List.append_nil, literals_nil] at hrest
  | case3 c t hnone ih =>
    have happend : value? (c :: (t ++ b)) = none := by
      rw [← List.cons_append, value?_append hb, hnone]
      rfl
    rw [List.cons_append, literals_of_none happend, ih]

/-- There is no literal in the blanks around a text. -/
theorem literals_trim (t : Text) : literals (Text.trim t) = literals t := by
  have hbefore : IsQuoteless (t.takeWhile Text.isBlank) := isQuoteless_of_blank fun c hc => List.mem_takeWhile_imp hc
  have hafter : IsQuoteless ((Text.trimLeft t).rtakeWhile Text.isBlank) :=
    isQuoteless_of_blank fun c hc => List.mem_rtakeWhile_imp hc
  have hright : Text.trim t ++ (Text.trimLeft t).rtakeWhile Text.isBlank = Text.trimLeft t :=
    List.rdropWhile_append_rtakeWhile
  have hleft : t.takeWhile Text.isBlank ++ Text.trimLeft t = t := List.takeWhile_append_dropWhile
  calc literals (Text.trim t) = literals (Text.trim t ++ (Text.trimLeft t).rtakeWhile Text.isBlank) :=
        (literals_append_quoteless hafter _).symm
    _ = literals (Text.trimLeft t) := by rw [hright]
    _ = literals (t.takeWhile Text.isBlank ++ Text.trimLeft t) := (literals_quoteless_append hbefore _).symm
    _ = literals t := by rw [hleft]

/-- Literals with a bar in front of each. -/
def behindBars : List Literal → Text
  | [] => []
  | l :: ls => '|' :: (l.text ++ behindBars ls)

theorem join_text (l : Literal) (ls : List Literal) :
    Text.join "|" ((l :: ls).map Literal.text) = l.before ++ (l.quoted ++ (l.after ++ behindBars ls)) := by
  induction ls generalizing l with
  | nil => simp [Text.join, Literal.text, behindBars]
  | cons m ms ih =>
    rw [List.map_cons, List.map_cons, Text.join_cons _ _ (List.cons_ne_nil _ _), ← List.map_cons, ih]
    simp [Literal.text, behindBars]

theorem Literal.literals_text (l : Literal) (t : Text) : literals (l.text ++ t) = l.value :: literals t := by
  have hshape : l.text ++ t = l.before ++ (l.quoted ++ (l.after ++ t)) := by simp [text]
  rw [hshape, literals_quoteless_append (isQuoteless_of_blank l.before_blank),
    literals_of_value? (l.value?_quoted _), literals_quoteless_append (isQuoteless_of_blank l.after_blank)]

theorem literals_behindBars (ls : List Literal) : literals (behindBars ls) = ls.map Literal.value := by
  induction ls with
  | nil => exact literals_nil
  | cons l ls ih =>
    have hbar : IsQuoteless ['|'] := by simp [IsQuoteless]
    rw [behindBars, ← List.singleton_append, literals_quoteless_append hbar, l.literals_text, ih, List.map_cons]

/-- Bars and blanks are passed over, and each literal is found where it stands. -/
theorem literals_text (u : LiteralUnion) : literals u.text = u.values := by
  obtain ⟨bar, ls, hne⟩ := u
  obtain ⟨l, ls, rfl⟩ := List.exists_cons_of_ne_nil hne
  have hbar : IsQuoteless (if bar then ['|'] else []) := by cases bar <;> simp [IsQuoteless]
  have hshape : l.before ++ (l.quoted ++ (l.after ++ behindBars ls)) = l.text ++ behindBars ls := by
    simp [Literal.text]
  rw [LiteralUnion.text, literals_quoteless_append hbar, join_text, hshape, l.literals_text, literals_behindBars]
  rfl

theorem trimLeft_quoted (l : Literal) (t : Text) : Text.trimLeft (l.quoted ++ t) = l.quoted ++ t := by
  rw [Text.trimLeft_eq_self]
  simp [Literal.quoted, l.isBlank_quote]

theorem trimRight_quoted (l : Literal) (t : Text) :
    Text.trimRight (l.quoted ++ t) = l.quoted ++ Text.trimRight t := by
  refine Text.trimRight_append_of_self (Text.trimRight_eq_self.mpr ?_) t
  simp [Literal.quoted, List.getLast?_cons, l.isBlank_quote]

theorem isBarred_nil : isBarred [] = true := by
  rw [isBarred]
  rfl

theorem isBarred_bar (l : Literal) {b : Text} (hb : ∀ c ∈ b, Text.isBlank c = true) (r : Text) :
    isBarred (b ++ '|' :: (l.before ++ (l.quoted ++ r))) = isBarred r := by
  have hfront : Text.dropStart? ['|'] (Text.trimLeft (b ++ '|' :: (l.before ++ (l.quoted ++ r)))) =
      some (l.before ++ (l.quoted ++ r)) := by
    rw [Text.trimLeft_blank_append hb]
    rfl
  have hliteral : afterLiteral? (Text.trimLeft (l.before ++ (l.quoted ++ r))) = some r := by
    rw [Text.trimLeft_blank_append l.before_blank, trimLeft_quoted, l.afterLiteral?_quoted]
  rw [isBarred, if_neg (by simp)]
  split
  · next hnone =>
    rw [hfront] at hnone
    cases hnone
  · next hsome =>
    obtain rfl := Option.some.inj (hfront.symm.trans hsome)
    split
    · next hnone =>
      rw [hliteral] at hnone
      cases hnone
    · next hsome =>
      obtain rfl := Option.some.inj (hliteral.symm.trans hsome)
      rfl

/-- Members are read up to the blanks at the end of the text. -/
theorem isBarred_trimRight (ls : List Literal) {b : Text} (hb : ∀ c ∈ b, Text.isBlank c = true) :
    isBarred (Text.trimRight (b ++ behindBars ls)) = true := by
  induction ls generalizing b with
  | nil =>
    have hend : Text.trimRight (b ++ behindBars []) = [] := by simpa [behindBars, Text.trimRight] using hb
    rw [hend, isBarred_nil]
  | cons l ls ih =>
    have hshape : b ++ behindBars (l :: ls) = (b ++ '|' :: l.before) ++ (l.quoted ++ (l.after ++ behindBars ls)) := by
      simp [behindBars, Literal.text]
    have hne : Text.trimRight (l.quoted ++ (l.after ++ behindBars ls)) ≠ [] := by
      rw [trimRight_quoted]
      simp [Literal.quoted]
    have htrim : Text.trimRight (b ++ behindBars (l :: ls)) =
        b ++ '|' :: (l.before ++ (l.quoted ++ Text.trimRight (l.after ++ behindBars ls))) := by
      rw [hshape, Text.trimRight_append hne, trimRight_quoted]
      simp
    rw [htrim, isBarred_bar l hb, ih l.after_blank]

theorem exists_of_isBarred {t : Text} (h : isBarred t = true) :
    ∃ b ls, (∀ c ∈ b, Text.isBlank c = true) ∧ t = b ++ behindBars ls := by
  fun_induction isBarred t with
  | case1 t hempty => exact ⟨[], [], List.forall_mem_nil _, by simpa [behindBars] using hempty⟩
  | case2 => cases h
  | case3 => cases h
  | case4 t hne member hbar r hliteral ih =>
    obtain ⟨b, ls, hb, rfl⟩ := ih h
    obtain ⟨l, hl⟩ := exists_of_afterLiteral? hliteral
    have ht : t = t.takeWhile Text.isBlank ++ '|' :: member := by
      calc t = t.takeWhile Text.isBlank ++ Text.trimLeft t := List.takeWhile_append_dropWhile.symm
        _ = t.takeWhile Text.isBlank ++ '|' :: member := by rw [Text.dropStart?_eq_some_iff.mp hbar]; rfl
    have hmember : member = member.takeWhile Text.isBlank ++ (l.quoted ++ (b ++ behindBars ls)) := by
      rw [← hl]
      exact List.takeWhile_append_dropWhile.symm
    let m : Literal := { l with
      before := member.takeWhile Text.isBlank, after := b
      before_blank := fun c hc => List.mem_takeWhile_imp hc, after_blank := hb }
    refine ⟨t.takeWhile Text.isBlank, m :: ls, fun c hc => List.mem_takeWhile_imp hc, ht.trans ?_⟩
    rw [hmember]
    simp [m, behindBars, Literal.text, Literal.quoted]

/-- A union is recognised with blanks around it or without. -/
theorem isUnion_trim (u : LiteralUnion) : isUnion (Text.trim u.text) = true := by
  obtain ⟨bar, literals, hne⟩ := u
  obtain ⟨l, ls, rfl⟩ := List.exists_cons_of_ne_nil hne
  have htrim := trimRight_quoted l (l.after ++ behindBars ls)
  cases bar with
  | true =>
    have hshape : Text.trim (LiteralUnion.text ⟨true, l :: ls, hne⟩) =
        '|' :: (l.before ++ (l.quoted ++ Text.trimRight (l.after ++ behindBars ls))) := by
      have hbar : Text.trimLeft ('|' :: (l.before ++ (l.quoted ++ (l.after ++ behindBars ls)))) =
          ('|' :: l.before) ++ (l.quoted ++ (l.after ++ behindBars ls)) := rfl
      have hne : Text.trimRight (l.quoted ++ (l.after ++ behindBars ls)) ≠ [] := by
        rw [htrim]
        simp [Literal.quoted]
      rw [LiteralUnion.text, join_text, if_pos rfl, List.singleton_append, Text.trim, hbar,
        Text.trimRight_append hne, htrim, List.cons_append]
    have hfront (t : Text) : Text.dropStart? ['|'] ('|' :: t) = some t := rfl
    rw [hshape, isUnion, hfront, Option.getD_some, Text.trimLeft_blank_append l.before_blank, trimLeft_quoted,
      l.afterLiteral?_quoted]
    exact isBarred_trimRight ls l.after_blank
  | false =>
    have hshape : Text.trim (LiteralUnion.text ⟨false, l :: ls, hne⟩) =
        l.quoted ++ Text.trimRight (l.after ++ behindBars ls) := by
      rw [LiteralUnion.text, join_text, if_neg Bool.false_ne_true, List.nil_append,
        Text.trim_blank_append l.before_blank, Text.trim, trimLeft_quoted, htrim]
    have hfront (t : Text) : Text.dropStart? ['|'] (l.quoted ++ t) = none := by
      simp [Literal.quoted, Text.dropStart?, l.quote_ne_bar.symm]
    rw [hshape, isUnion, hfront, Option.getD_none, trimLeft_quoted, l.afterLiteral?_quoted]
    exact isBarred_trimRight ls l.after_blank

/-- A literal with nothing behind it but literals with bars in front is the first of some that are joined. -/
theorem exists_join {s r : Text} (hliteral : afterLiteral? (Text.trimLeft s) = some r) (hrest : isBarred r = true) :
    ∃ l ls, s = Text.join "|" ((l :: ls).map Literal.text) := by
  obtain ⟨l, hl⟩ := exists_of_afterLiteral? hliteral
  obtain ⟨b, ls, hb, rfl⟩ := exists_of_isBarred hrest
  let m : Literal := { l with
    before := s.takeWhile Text.isBlank, after := b
    before_blank := fun c hc => List.mem_takeWhile_imp hc, after_blank := hb }
  refine ⟨m, ls, ?_⟩
  calc s = s.takeWhile Text.isBlank ++ Text.trimLeft s := List.takeWhile_append_dropWhile.symm
    _ = m.before ++ (m.quoted ++ (m.after ++ behindBars ls)) := by rw [hl]; rfl
    _ = Text.join "|" ((m :: ls).map Literal.text) := (join_text m ls).symm

/-- In a text that is recognised as a union, the literals that are found are its members in their order. -/
theorem exists_of_isUnion {t : Text} (h : isUnion t = true) :
    ∃ u : LiteralUnion, t = u.text ∧ literals t = u.values := by
  suffices hshape : ∃ u : LiteralUnion, t = u.text by
    obtain ⟨u, rfl⟩ := hshape
    exact ⟨u, rfl, literals_text u⟩
  unfold isUnion at h
  split at h
  · cases h
  · next r hliteral =>
    obtain ⟨l, ls, hs⟩ := exists_join hliteral h
    cases hbar : Text.dropStart? ['|'] t with
    | none =>
      rw [hbar, Option.getD_none] at hs
      exact ⟨⟨false, l :: ls, List.cons_ne_nil l ls⟩, hs⟩
    | some s =>
      rw [hbar, Option.getD_some] at hs
      refine ⟨⟨true, l :: ls, List.cons_ne_nil l ls⟩, ?_⟩
      rw [Text.dropStart?_eq_some_iff.mp hbar, LiteralUnion.text, ← hs]
      rfl

theorem LiteralUnion.text_ne_nil (u : LiteralUnion) : Text.trim u.text ≠ [] := by
  intro hempty
  have hunion := isUnion_trim u
  rw [hempty] at hunion
  cases hunion

theorem LiteralUnion.values_ne_nil (u : LiteralUnion) : u.values ≠ [] := by
  simpa [LiteralUnion.values] using u.ne_nil

theorem LiteralUnion.ne_nil_of_mem_values {u : LiteralUnion} {v : Text} (h : v ∈ u.values) : v ≠ [] := by
  obtain ⟨l, -, rfl⟩ := List.mem_map.mp h
  exact l.ne_nil

theorem ofText_union {t : Text} {u : LiteralUnion} (h : clean t = Text.trim u.text) :
    TypeInfo.ofText (some t) = u.info := by
  have hne : clean t ≠ [] := by
    rw [h]
    exact u.text_ne_nil
  rw [TypeInfo.ofText_of_clean hne, h, TypeInfo.ofClean, if_pos (isUnion_trim u), literals_trim, literals_text u]
  rfl

/-- A type with values is a union of literals. -/
theorem exists_of_values {t : Option Text} {vs : List Text} (h : (TypeInfo.ofText t).values = some vs) :
    ∃ u : LiteralUnion, t.map clean = some u.text ∧ TypeInfo.ofText t = u.info ∧ u.values = vs := by
  cases t with
  | none => cases h
  | some t =>
    by_cases hne : clean t = []
    · simp [TypeInfo.ofText, hne] at h
    · rw [TypeInfo.ofText_of_clean hne] at h ⊢
      rcases TypeInfo.ofClean_cases (clean t) with ⟨hunion, hinfo⟩ | ⟨k, -, description, hinfo⟩ | hinfo
      · obtain ⟨u, ht, hvalues⟩ := exists_of_isUnion hunion
        rw [hinfo, hvalues] at h ⊢
        obtain rfl := Option.some.inj h
        exact ⟨u, congrArg some ht, rfl, rfl⟩
      · rw [hinfo] at h
        cases h
      · rw [hinfo] at h
        cases h

/-- A type has values exactly if its clean text is a union of string literals, and then it is a choice between
the values of the literals in their order. A union is read back in whatever form it is written, with blanks around
it or without, unless there is an import in it. -/
theorem unions_recognised (t : Text) :
    (∀ vs, (TypeInfo.ofText (some t)).values = some vs ↔ ∃ u : LiteralUnion, clean t = u.text ∧ u.values = vs) ∧
    (∀ u : LiteralUnion, clean t = u.text → TypeInfo.ofText (some t) = u.info) ∧
    (∀ u : LiteralUnion, Text.trim t = Text.trim u.text → Text.occursIn "import(" t = false →
      TypeInfo.ofText (some t) = u.info) := by
  have hclean {u : LiteralUnion} (h : clean t = u.text) : TypeInfo.ofText (some t) = u.info := by
    have htrim : Text.trim (clean t) = clean t := Text.trim_trim (dropQualifiers t)
    rw [h] at htrim
    exact ofText_union (h.trans htrim.symm)
  refine ⟨fun vs => ⟨fun h => ?_, ?_⟩, fun u h => hclean h, fun u h himport => ?_⟩
  · obtain ⟨u, ht, -, hvalues⟩ := exists_of_values h
    exact ⟨u, Option.some.inj ht, hvalues⟩
  · rintro ⟨u, h, rfl⟩
    rw [hclean h]
    rfl
  · have hkept : clean t = Text.trim t := by rw [clean, dropQualifiers_eq_self himport]
    exact ofText_union (hkept.trans h)

/-- A bar, brackets and the other quote in values, a bar in front, and a tab between literals. -/
def mixed : LiteralUnion where
  bar := true
  literals := [
    { value := "it's", quote := '"', before := [' '], after := ['\t'],
      ne_nil := by decide, quote_mem := by decide, quote_notMem := by decide },
    { value := "a|b[]", quote := '\'', ne_nil := by decide, quote_mem := by decide, quote_notMem := by decide },
    { value := "it's", quote := '"', ne_nil := by decide, quote_mem := by decide, quote_notMem := by decide }]
  ne_nil := by decide

theorem unions_recognised_mixed :
    mixed.text = "| \"it's\"\t|'a|b[]'|\"it's\"".toList ∧ Text.occursIn "import(" mixed.text = false ∧
    (TypeInfo.ofText (some mixed.text)).values = some ["it's".toList, "a|b[]".toList, "it's".toList] := by
  have himport : Text.occursIn "import(" mixed.text = false := by decide
  have hinfo := (unions_recognised mixed.text).2.2 mixed rfl himport
  exact ⟨rfl, himport, by rw [hinfo]; rfl⟩

end Tool

end CodeManifest
