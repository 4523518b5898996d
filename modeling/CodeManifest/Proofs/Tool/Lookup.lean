import CodeManifest.Proofs.Tool.Verb

namespace CodeManifest.Tool

/-- What may follow `By` in a qualifier. -/
def Marks (c : Char) : Prop := ('A' ≤ c ∧ c ≤ 'Z') ∨ Text.isDigit c = true ∨ c = '_'

instance (c : Char) : Decidable (Marks c) :=
  inferInstanceAs (Decidable (('A' ≤ c ∧ c ≤ 'Z') ∨ Text.isDigit c = true ∨ c = '_'))

/-- A lookup qualifier, with nothing behind it. -/
inductive IsLookup : Text → Prop
  | mk {c : Char} {w : Text} (hc : Marks c) (hw : ∀ d ∈ w, Text.isWord d = true) : IsLookup ('B' :: 'y' :: c :: w)

/-- What follows the verb of a name, if it is one word that is no qualifier from its beginning and leaves none open
at its end. -/
structure IsSubject (s : Text) : Prop where
  ne_nil : s ≠ []
  solid : ∀ c ∈ s, Text.isBlank c = false
  start : ∀ c w, s = 'B' :: 'y' :: c :: w → ¬ Marks c
  stop : ¬ "By".toList <:+ s

theorem isLookup_by (c : Char) {w : Text} (hw : '\n' ∉ w) :
    isLookup ('B' :: 'y' :: c :: w) = true ↔ Marks c ∧ ∀ d ∈ w, Text.isWord d = true := by
  have hmark : (decide ('A' ≤ c) && decide (c ≤ 'Z') || Text.isDigit c || decide (c = '_')) = true ↔ Marks c := by
    simp [Marks, or_assoc]
  have hline : w.dropWhile Text.isWord ≠ ['\n'] := by
    intro hline
    have hmem : '\n' ∈ w.dropWhile Text.isWord := by simp [hline]
    exact hw ((w.dropWhile_suffix Text.isWord).subset hmem)
  have hdrop : Text.dropStart? "By" ('B' :: 'y' :: c :: w) = some (c :: w) := Text.dropStart?_eq_some_iff.mpr rfl
  unfold isLookup
  rw [hdrop]
  simp [hmark, hline]

theorem isLookup_eq_true_iff {t : Text} (ht : '\n' ∉ t) : isLookup t = true ↔ IsLookup t := by
  constructor
  · intro h
    have hshape : ∃ c w, t = 'B' :: 'y' :: c :: w := by
      unfold isLookup at h
      split at h
      · next c w hdrop => exact ⟨c, w, Text.dropStart?_eq_some_iff.mp hdrop⟩
      · cases h
    obtain ⟨c, w, rfl⟩ := hshape
    have hw : '\n' ∉ w := fun hmem => ht (by simp [hmem])
    obtain ⟨hmark, hword⟩ := (isLookup_by c hw).mp h
    exact ⟨hmark, hword⟩
  · intro h
    cases h with
    | @mk c w hmark hword =>
      have hw : '\n' ∉ w := fun hmem => ht (by simp [hmem])
      exact (isLookup_by c hw).mpr ⟨hmark, hword⟩

theorem isWord_of_marks {c : Char} (h : Marks c) : Text.isWord c = true := by
  rcases h with ⟨hlow, hhigh⟩ | hdigit | rfl
  · have hpoint : c.toNat ≤ 90 := hhigh
    have hupper : c.isUpper = true := by
      rw [Char.isUpper, decide_eq_true_eq]
      exact ⟨hlow, hhigh⟩
    refine Text.isWord_of_isAlphanum (by omega) ?_
    simp [Char.isAlphanum, Char.isAlpha, hupper]
  · rw [Text.isDigit, Bool.and_eq_true, decide_eq_true_eq, decide_eq_true_eq] at hdigit
    have hpoint : c.toNat ≤ 57 := hdigit.2
    have hnumeral : c.isDigit = true := by
      rw [Char.isDigit, Bool.and_eq_true, decide_eq_true_eq, decide_eq_true_eq]
      exact hdigit
    refine Text.isWord_of_isAlphanum (by omega) ?_
    simp [Char.isAlphanum, hnumeral]
  · rfl

theorem IsLookup.isWord {q : Text} (hq : IsLookup q) : ∀ d ∈ q, Text.isWord d = true := by
  cases hq with
  | mk hc hw =>
    refine List.forall_mem_cons.mpr ⟨rfl, List.forall_mem_cons.mpr ⟨rfl, List.forall_mem_cons.mpr ⟨?_, hw⟩⟩⟩
    exact isWord_of_marks hc

/-- A qualifier behind a text does not make one of the text, unless its end is half of one. -/
theorem isLookup_append_iff {s q : Text} (hne : s ≠ []) (hstop : ¬ "By".toList <:+ s) (hq : IsLookup q) :
    IsLookup (s ++ q) ↔ IsLookup s := by
  constructor
  · intro h
    match s, hne with
    | [a], _ =>
      cases hq with
      | mk => cases h
    | [a, b], _ =>
      cases h with
      | mk => exact absurd (List.suffix_refl _) hstop
    | a :: b :: c :: w, _ =>
      cases h with
      | mk hc hw => exact ⟨hc, fun d hd => hw d (List.mem_append_left q hd)⟩
  · intro h
    cases h with
    | @mk c w hc hw =>
      refine ⟨hc, fun d hd => ?_⟩
      rcases List.mem_append.mp hd with hd | hd
      · exact hw d hd
      · exact hq.isWord d hd

theorem dropLookup_of_isLookup {t : Text} (ht : '\n' ∉ t) (h : IsLookup t) : dropLookup t = [] := by
  have htest := (isLookup_eq_true_iff ht).mpr h
  cases h with
  | @mk c w hc hw =>
    have hlast : ('B' :: 'y' :: c :: w).getLast? ≠ some '\n' := fun hlast => ht (List.mem_of_getLast? hlast)
    rw [dropLookup, if_pos htest, if_neg hlast]

theorem dropLookup_cons {c : Char} {t : Text} (ht : '\n' ∉ c :: t) (h : ¬ IsLookup (c :: t)) :
    dropLookup (c :: t) = c :: dropLookup t := by
  rw [dropLookup, if_neg (fun htest => h ((isLookup_eq_true_iff ht).mp htest))]

theorem dropLookup_append {s q : Text} (hs : '\n' ∉ s ++ q) (hstop : ¬ "By".toList <:+ s) (hq : IsLookup q) :
    dropLookup (s ++ q) = dropLookup s := by
  -- Up to the first qualifier of the text both are read alike; if it has none, the appended one is the first.
  induction s with
  | nil =>
    have hline : '\n' ∉ q := hs
    rw [List.nil_append, dropLookup_of_isLookup hline hq, dropLookup]
  | cons c s ih =>
    have hown : '\n' ∉ c :: s := fun hmem => hs (List.mem_append_left q hmem)
    have hshift := isLookup_append_iff (List.cons_ne_nil c s) hstop hq
    by_cases h : IsLookup (c :: s)
    · rw [dropLookup_of_isLookup hown h, dropLookup_of_isLookup hs (hshift.mpr h)]
    · have hrest : '\n' ∉ s ++ q := fun hmem => hs (List.mem_cons_of_mem c hmem)
      have hopen : ¬ "By".toList <:+ s := fun hsuffix => hstop (hsuffix.trans (List.suffix_cons c s))
      rw [dropLookup_cons hown h, ← ih hrest hopen]
      exact dropLookup_cons hs (fun h' => h (hshift.mp h'))

theorem IsSubject.dropLookup_ne_nil {s : Text} (h : IsSubject s) : dropLookup s ≠ [] := by
  have hline : '\n' ∉ s := by
    intro hmem
    have hblank := h.solid '\n' hmem
    cases hblank
  have hfree : ¬ IsLookup s := by
    intro hlookup
    cases hlookup with
    | @mk c w hc hw => exact h.start c w rfl hc
  match s, h.ne_nil with
  | c :: s, _ =>
    rw [dropLookup_cons hline hfree]
    exact List.cons_ne_nil _ _

theorem subject_append {s q : Text} (h : IsSubject s) (hq : IsLookup q) : subject (s ++ q) = subject s := by
  have hline : '\n' ∉ s ++ q := by
    intro hmem
    rcases List.mem_append.mp hmem with hmem | hmem
    · have hblank := h.solid '\n' hmem
      cases hblank
    · have hword := hq.isWord '\n' hmem
      cases hword
  have hshort : (dropLookup s).isEmpty = false := by simpa using h.dropLookup_ne_nil
  simp only [subject, dropLookup_append hline h.stop hq, hshort]
  rfl

/-- With one more lookup qualifier at its end, a name that a verb leads is told by the same sentence, whatever the
parameters are and also if such qualifiers were there before. Each such sentence has single spaces only, and none at
its ends. -/
theorem lookup_unseen :
    (∀ (v : Verb) (p s q : Text), Verb.find? Verb.described (p ++ s) = some (v, s) → IsSubject s → IsLookup q →
      ∀ parameters byId, describe (p ++ s ++ q) parameters byId = describe (p ++ s) parameters byId) ∧
    ∀ (name : Text) (v : Verb) (rest : Text), Verb.find? Verb.described name = some (v, rest) →
      ∀ parameters byId, (describe name parameters byId).IsSpaced := by
  refine ⟨?_, ?_⟩
  · intro v p s q hname hs hq parameters byId
    obtain ⟨hv, hleads⟩ := Verb.find?_described_eq_some_iff.mp hname
    rw [describe_of_leads hv (hleads.append q), describe_of_leads hv hleads, subject_append hs hq]
  · intro name v rest hname parameters byId
    obtain ⟨hv, hleads⟩ := Verb.find?_described_eq_some_iff.mp hname
    rw [describe_of_leads hv hleads]
    exact Text.isSpaced_spaced (Verb.words_sentence_ne_nil (subject rest) byId hv)

theorem lookup_unseen_twice :
    Verb.find? Verb.described "getUserByEmail".toList = some (.fetch, "UserByEmail".toList) ∧
    IsSubject "UserByEmail".toList ∧ IsLookup "By_id".toList ∧
    describe "getUserByEmailBy_id" (.ofNat 0) false = describe "getUserByEmail" (.ofNat 0) false ∧
    (describe "getUserByEmail" (.ofNat 0) false).IsSpaced := by
  have hname : Verb.find? Verb.described ("get".toList ++ "UserByEmail".toList) =
      some (.fetch, "UserByEmail".toList) := by
    decide +kernel
  have hsubject : IsSubject "UserByEmail".toList :=
    ⟨by decide, by simp [Text.isBlank], by rintro c w ⟨⟩, by decide⟩
  have hlookup : IsLookup "By_id".toList := ⟨by decide, List.all_eq_true.mp (by decide)⟩
  exact ⟨hname, hsubject, hlookup, lookup_unseen.1 _ _ _ _ hname hsubject hlookup _ _, lookup_unseen.2 _ _ _ hname _ _⟩

end CodeManifest.Tool
