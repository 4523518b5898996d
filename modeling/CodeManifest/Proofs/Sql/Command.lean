import CodeManifest.Proofs.Text.Case
import CodeManifest.Proofs.Text.Spaced
import CodeManifest.Sql.Command
import Mathlib.Computability.Language
import Mathlib.Logic.Relation

namespace CodeManifest.Sql.Command

open Text Computability

variable {c e : Command} {p t u v w : Text} {ws : List Text}

/-- What is created. -/
def targets : List Text := ["table", "index"]

/-- The word is a target, or goes on behind one with what belongs to no word. -/
def IsTarget (w : Text) : Prop :=
  ∃ s r, w = s ++ r ∧ s.map caseless ∈ targets ∧ ∀ c ∈ r.head?, isWord c = false

/-- Any number of modifiers, and a target. Anything may follow. -/
inductive Leads : List Text → Prop
  | target {w : Text} {ws : List Text} (hw : IsTarget w) : Leads (w :: ws)
  | orReplace {v w : Text} {ws : List Text} (hv : v.map caseless = "or".toList)
      (hw : w.map caseless = "replace".toList) (h : Leads ws) : Leads (v :: w :: ws)
  | modifier {w : Text} {ws : List Text} (hw : w.map caseless ∈ modifiers) (h : Leads ws) : Leads (w :: ws)

/-- The words of a statement that creates a table or an index. -/
inductive Creates : List Text → Prop
  | mk {w : Text} {ws : List Text} (hw : w.map caseless = "create".toList) (h : Leads ws) : Creates (w :: ws)

/-- Words that are compared are written in small letters. -/
theorem small_modifiers : ∀ p ∈ modifiers, isSmall p = true := by decide

theorem small_targets : ∀ p ∈ targets, isSmall p = true := by decide

theorem spells_iff (hp : isSmall p = true) : spells p w = true ↔ w.map caseless = p := by
  rw [spells, decide_eq_true_iff, dropFolded?_eq_some_iff (isSmall_iff.mp hp)]
  simp

theorem spellsStart_iff (hp : isSmall p = true) :
    spellsStart p w = true ↔ ∃ s r, w = s ++ r ∧ s.map caseless = p ∧ ∀ c ∈ r.head?, isWord c = false := by
  unfold spellsStart
  constructor
  · intro h
    split at h
    · next hdrop =>
      obtain ⟨s, hs, hmap⟩ := (dropFolded?_eq_some_iff (isSmall_iff.mp hp)).mp hdrop
      exact ⟨s, [], hs, hmap, by simp⟩
    · next d r hdrop =>
      obtain ⟨s, hs, hmap⟩ := (dropFolded?_eq_some_iff (isSmall_iff.mp hp)).mp hdrop
      exact ⟨s, d :: r, hs, hmap, by simpa using h⟩
    · cases h
  · rintro ⟨s, r, hw, hmap, hend⟩
    rw [(dropFolded?_eq_some_iff (isSmall_iff.mp hp)).mpr ⟨s, hw, hmap⟩]
    cases r with
    | nil => rfl
    | cons d r => simpa using hend

theorem isTarget_iff : IsTarget w ↔ (spellsStart "table" w || spellsStart "index" w) = true := by
  rw [Bool.or_eq_true, spellsStart_iff (small_targets _ (by decide)), spellsStart_iff (small_targets _ (by decide))]
  constructor
  · rintro ⟨s, r, hw, hs, hend⟩
    have hs : s.map caseless = "table".toList ∨ s.map caseless = "index".toList := by simpa [targets] using hs
    rcases hs with hs | hs
    · exact .inl ⟨s, r, hw, hs, hend⟩
    · exact .inr ⟨s, r, hw, hs, hend⟩
  · rintro (⟨s, r, hw, hs, hend⟩ | ⟨s, r, hw, hs, hend⟩)
    · exact ⟨s, r, hw, by rw [hs]; decide, hend⟩
    · exact ⟨s, r, hw, by rw [hs]; decide, hend⟩

theorem any_modifiers : (modifiers.any (spells · w)) = true ↔ w.map caseless ∈ modifiers := by
  rw [List.any_eq_true]
  constructor
  · rintro ⟨p, hp, hspells⟩
    rw [(spells_iff (small_modifiers p hp)).mp hspells]
    exact hp
  · intro h
    exact ⟨_, h, (spells_iff (small_modifiers _ h)).mpr rfl⟩

/-- No target is read as a modifier. -/
theorem IsTarget.apart (h : IsTarget w) : w.map caseless ≠ "or".toList ∧ w.map caseless ∉ modifiers := by
  obtain ⟨s, r, rfl, hs, -⟩ := h
  have hapart : ∀ p ∈ targets, ∀ m ∈ "or".toList :: modifiers, ¬ p <+: m := by decide
  rw [List.map_append]
  have hbegins : s.map caseless <+: s.map caseless ++ r.map caseless := List.prefix_append _ _
  constructor
  · intro hor
    rw [hor] at hbegins
    exact hapart _ hs _ List.mem_cons_self hbegins
  · intro hmem
    exact hapart _ hs _ (List.mem_cons_of_mem _ hmem) hbegins

theorem spells_or : spells "or" v = true ↔ v.map caseless = "or".toList := spells_iff (by decide)

theorem spells_replace : spells "replace" v = true ↔ v.map caseless = "replace".toList := spells_iff (by decide)

theorem spells_create : spells "create" v = true ↔ v.map caseless = "create".toList := spells_iff (by decide)

theorem createsSchema_iff : createsSchema ws = true ↔ Leads ws := by
  fun_induction createsSchema ws with
  | case1 =>
    constructor
    · intro h
      cases h
    · intro h
      cases h
  | case2 w =>
    rw [← isTarget_iff]
    constructor
    · exact Leads.target
    · intro h
      cases h with
      | target hw => exact hw
      | modifier _ h => cases h
  | case3 w v ws hor ih =>
    rw [Bool.and_eq_true, spells_or, spells_replace] at hor
    rw [ih]
    constructor
    · exact Leads.orReplace hor.1 hor.2
    · intro h
      cases h with
      | target hw => exact absurd hor.1 hw.apart.1
      | orReplace _ _ h => exact h
      | modifier hw _ =>
        rw [hor.1] at hw
        exact absurd hw (by decide)
  | case4 w v ws hor hany ih =>
    rw [any_modifiers] at hany
    rw [ih]
    constructor
    · exact Leads.modifier hany
    · intro h
      cases h with
      | target hw => exact absurd hany hw.apart.2
      | orReplace hw hv _ =>
        rw [hw] at hany
        exact absurd hany (by decide)
      | modifier _ h => exact h
  | case5 w v ws hor hany =>
    rw [← isTarget_iff]
    constructor
    · exact Leads.target
    · intro h
      cases h with
      | target hw => exact hw
      | orReplace hw hv _ =>
        rw [Bool.and_eq_true, spells_or, spells_replace] at hor
        exact absurd ⟨hw, hv⟩ hor
      | modifier hw _ => exact absurd (any_modifiers.mpr hw) hany

theorem isSchema_iff : c.isSchema = true ↔ Creates c.words := by
  unfold isSchema
  cases c.words with
  | nil =>
    constructor
    · intro h
      cases h
    · intro h
      cases h
  | cons w ws =>
    rw [Bool.and_eq_true, createsSchema_iff, spells_create]
    constructor
    · rintro ⟨hw, h⟩
      exact .mk hw h
    · rintro ⟨hw, h⟩
      exact ⟨hw, h⟩

/-- Words in any letter case. -/
def oneOf (ps : List Text) : Language Char := {s | s.map caseless ∈ ps}

def gap : Language Char := {b | b ≠ [] ∧ ∀ c ∈ b, isBlank c = true}

def modifier : Language Char := oneOf ["or"] * gap * oneOf ["replace"] + oneOf modifiers

def pattern : Language Char := oneOf ["create"] * gap * (modifier * gap)∗ * oneOf targets

/-- Of the characters on either side one belongs to a word and the other does not. -/
def IsBoundary (s r : Text) : Prop := s.getLast?.any isWord ≠ r.head?.any isWord

/-- The pattern stands at the front of the text, and a word ends behind it. -/
def Matches (t : Text) : Prop := ∃ s r, t = s ++ r ∧ s ∈ pattern ∧ IsBoundary s r

/-- The pattern consists of words in small letters. -/
def Plain (ps : List Text) : Prop := ∀ p ∈ ps, p ≠ [] ∧ isSmall p = true

instance (ps : List Text) : Decidable (Plain ps) :=
  inferInstanceAs (Decidable (∀ p ∈ ps, p ≠ [] ∧ isSmall p = true))

variable {ps : List Text} {s r a b : Text}

theorem mem_gap (hne : b ≠ []) (h : b.all isBlank = true) : b ∈ gap := ⟨hne, List.all_eq_true.mp h⟩

theorem ne_nil_of_mem_oneOf (hps : Plain ps) (h : s ∈ oneOf ps) : s ≠ [] := by
  intro hnil
  have hne := (hps _ h).1
  rw [hnil] at hne
  exact hne rfl

theorem isWord_of_mem_oneOf (hps : Plain ps) (h : s ∈ oneOf ps) : ∀ d ∈ s, isWord d = true := by
  intro d hd
  rw [← isWord_caseless]
  exact isWord_of_small (isSmall_iff.mp (hps _ h).2 _ (List.mem_map_of_mem hd))

theorem words_of_mem_oneOf (hps : Plain ps) (h : s ∈ oneOf ps) : Text.words s = [s] :=
  words_eq_singleton (ne_nil_of_mem_oneOf hps h) fun d hd =>
    isBlank_eq_false_of_isWord (isWord_of_mem_oneOf hps h d hd)

/-- A word of the pattern is a word of the text. -/
theorem words_oneOf_gap (hps : Plain ps) (hs : s ∈ oneOf ps) (hb : b ∈ gap) (t : Text) :
    Text.words (s ++ (b ++ t)) = s :: Text.words t := by
  rw [words_append_blanks hb.1 hb.2, words_of_mem_oneOf hps hs]
  rfl

theorem isBoundary_iff (hps : Plain ps) (hs : s ∈ oneOf ps) (a : Text) :
    IsBoundary (a ++ s) r ↔ ∀ d ∈ r.head?, isWord d = false := by
  have hlast : (a ++ s).getLast?.any isWord = true := by
    have hne := ne_nil_of_mem_oneOf hps hs
    rw [List.getLast?_append_of_ne_nil a hne, List.getLast?_eq_some_getLast hne]
    exact isWord_of_mem_oneOf hps hs _ (List.getLast_mem hne)
  rw [IsBoundary, hlast]
  cases r <;> simp

theorem leads_of_modifier (ha : a ∈ modifier) (hb : b ∈ gap) (h : Leads (Text.words t)) :
    Leads (Text.words (a ++ (b ++ t))) := by
  rcases ha with ha | ha
  · obtain ⟨x, ⟨v, hv, g, hg, rfl⟩, w, hw, rfl⟩ := ha
    have hsplit : v ++ g ++ w ++ (b ++ t) = v ++ (g ++ (w ++ (b ++ t))) := by simp
    rw [hsplit, words_oneOf_gap (by decide) hv hg, words_oneOf_gap (by decide) hw hb]
    exact .orReplace (List.mem_singleton.mp hv) (List.mem_singleton.mp hw) h
  · rw [words_oneOf_gap (by decide) ha hb]
    exact .modifier ha h

theorem leads_of_modifiers {m : Text} (hm : m ∈ (modifier * gap)∗) (h : Leads (Text.words t)) : Leads (Text.words (m ++ t)) := by
  obtain ⟨parts, rfl, hparts⟩ := Language.mem_kstar.mp hm
  induction parts with
  | nil => exact h
  | cons x parts ih =>
    obtain ⟨hx, hrest⟩ := List.forall_mem_cons.mp hparts
    obtain ⟨a, ha, b, hb, rfl⟩ := Language.mem_mul.mp hx
    have hsplit : ((a ++ b) :: parts).flatten ++ t = a ++ (b ++ (parts.flatten ++ t)) := by simp
    rw [hsplit]
    exact leads_of_modifier ha hb (ih hrest (Language.join_mem_kstar hrest))

theorem leads_of_target (hs : s ∈ oneOf targets) (hr : ∀ d ∈ r.head?, isWord d = false) : Leads (Text.words (s ++ r)) := by
  have hplain : Plain targets := by decide
  have hne := ne_nil_of_mem_oneOf hplain hs
  have hblank : ∀ d ∈ s, isBlank d = false := fun d hd =>
    isBlank_eq_false_of_isWord (isWord_of_mem_oneOf hplain hs d hd)
  have hhead : ∀ d ∈ (s ++ r).head?, isBlank d = false := by
    rw [List.head?_append_of_ne_nil s hne]
    intro d hd
    exact hblank d (List.mem_of_mem_head? hd)
  rw [words_of_head (by simp [hne]) hhead]
  refine .target ⟨s, r.takeWhile (! isBlank ·), ?_, hs, ?_⟩
  · rw [List.takeWhile_append_of_pos]
    intro d hd
    simp [hblank d hd]
  · intro d hd
    cases r with
    | nil => cases hd
    | cons x r =>
      rw [List.takeWhile_cons] at hd
      split at hd
      · exact hr d hd
      · cases hd

theorem creates_of_matches (h : Matches t) : Creates (Text.words t) := by
  obtain ⟨_, r, rfl, hs, hend⟩ := h
  obtain ⟨_, ⟨_, ⟨a, ha, b, hb, rfl⟩, m, hm, rfl⟩, k, hk, rfl⟩ := hs
  have hend := (isBoundary_iff (by decide) hk (a ++ b ++ m)).mp hend
  have hsplit : a ++ b ++ m ++ k ++ r = a ++ (b ++ (m ++ (k ++ r))) := by simp
  dsimp only
  rw [hsplit, words_oneOf_gap (by decide) ha hb]
  exact .mk (List.mem_singleton.mp ha) (leads_of_modifiers hm (leads_of_target hk hend))

/-- Nothing stands in front of the first word. -/
def StartsWithWord (t : Text) : Prop := ∀ d ∈ t.head?, isBlank d = false

theorem exists_first (ht : StartsWithWord t) (hwords : Text.words t = w :: ws) :
    ∃ d, t = w ++ d ∧ (∀ x ∈ d.head?, isBlank x = true) ∧ Text.words d = ws := by
  have hnonempty : t ≠ [] := by
    rintro rfl
    cases hwords
  rw [words_of_head hnonempty ht] at hwords
  obtain ⟨hfirst, hrest⟩ := List.cons.inj hwords
  refine ⟨t.dropWhile (! isBlank ·), ?_, ?_, hrest⟩
  · rw [← hfirst, List.takeWhile_append_dropWhile]
  · intro x hx
    have hstop := List.head?_dropWhile_not (! isBlank ·) t
    rw [hx] at hstop
    simpa using hstop

/-- Between the first word and the next one there are blanks. -/
theorem exists_gap (ht : StartsWithWord t) (hwords : Text.words t = w :: ws) (hne : ws ≠ []) :
    ∃ b u, t = w ++ (b ++ u) ∧ b ∈ gap ∧ StartsWithWord u ∧ Text.words u = ws := by
  obtain ⟨d, hsplit, hhead, hrest⟩ := exists_first ht hwords
  have hblank : ∀ x ∈ d.takeWhile isBlank, isBlank x = true := fun x hx => List.mem_takeWhile_imp hx
  have hparts : d.takeWhile isBlank ++ d.dropWhile isBlank = d := List.takeWhile_append_dropWhile
  refine ⟨d.takeWhile isBlank, d.dropWhile isBlank, by rw [hparts, hsplit], ⟨?_, hblank⟩, ?_, ?_⟩
  · cases d with
    | nil => exact absurd hrest.symm hne
    | cons x d => simp [hhead x rfl]
  · intro x hx
    have hstop := List.head?_dropWhile_not isBlank d
    rw [hx] at hstop
    simpa using hstop
  · rw [← hrest, ← words_blank_append hblank, hparts]

theorem Leads.ne_nil (h : Leads ws) : ws ≠ [] := by
  cases h <;> simp

theorem append_mem_modifiers {m : Text} (ha : a ∈ modifier) (hb : b ∈ gap) (hm : m ∈ (modifier * gap)∗) :
    a ++ (b ++ m) ∈ (modifier * gap)∗ := by
  obtain ⟨parts, rfl, hparts⟩ := Language.mem_kstar.mp hm
  refine Language.mem_kstar.mpr ⟨(a ++ b) :: parts, by simp, ?_⟩
  intro x hx
  rcases List.mem_cons.mp hx with rfl | hx
  · exact Language.append_mem_mul ha hb
  · exact hparts x hx

/-- Words that lead to a target are those of the pattern. -/
theorem exists_modifiers (h : Leads ws) (ht : StartsWithWord t) (hwords : Text.words t = ws) :
    ∃ m k r, t = m ++ (k ++ r) ∧ m ∈ (modifier * gap)∗ ∧ k ∈ oneOf targets ∧ ∀ d ∈ r.head?, isWord d = false := by
  induction h generalizing t with
  | @target w ws hw =>
    obtain ⟨s, r, rfl, hs, hend⟩ := hw
    obtain ⟨d, rfl, hhead, -⟩ := exists_first ht hwords
    refine ⟨[], s, r ++ d, by simp, Language.nil_mem_kstar _, hs, ?_⟩
    intro x hx
    rw [List.head?_append] at hx
    cases r with
    | nil => exact isWord_eq_false_of_isBlank (hhead x hx)
    | cons y r => exact hend x hx
  | @orReplace v w ws hv hw h ih =>
    obtain ⟨g, u, rfl, hg, hu, hrest⟩ := exists_gap ht hwords (List.cons_ne_nil w ws)
    obtain ⟨b, t, rfl, hb, ht, hrest⟩ := exists_gap hu hrest h.ne_nil
    obtain ⟨m, k, r, rfl, hm, hk, hend⟩ := ih ht hrest
    have hmodifier : v ++ g ++ w ∈ modifier :=
      .inl (Language.append_mem_mul (Language.append_mem_mul (List.mem_singleton.mpr hv) hg) (List.mem_singleton.mpr hw))
    exact ⟨v ++ g ++ w ++ (b ++ m), k, r, by simp, append_mem_modifiers hmodifier hb hm, hk, hend⟩
  | @modifier w ws hw h ih =>
    obtain ⟨b, t, rfl, hb, ht, hrest⟩ := exists_gap ht hwords h.ne_nil
    obtain ⟨m, k, r, rfl, hm, hk, hend⟩ := ih ht hrest
    exact ⟨w ++ (b ++ m), k, r, by simp, append_mem_modifiers (.inr hw) hb hm, hk, hend⟩

theorem matches_of_creates (ht : StartsWithWord t) (h : Creates (Text.words t)) : Matches t := by
  generalize hwords : Text.words t = ws at h
  cases h with
  | @mk w _ hw h =>
    obtain ⟨b, u, rfl, hb, hu, hrest⟩ := exists_gap ht hwords h.ne_nil
    obtain ⟨m, k, r, rfl, hm, hk, hend⟩ := exists_modifiers h hu hrest
    refine ⟨w ++ b ++ m ++ k, r, by simp, ?_, (isBoundary_iff (by decide) hk _).mpr hend⟩
    exact Language.append_mem_mul
      (Language.append_mem_mul (Language.append_mem_mul (List.mem_singleton.mpr hw) hb) hm) hk

/-- On one line, with single spaces, the pattern tells what the words tell. -/
theorem matches_text_iff : Matches c.text ↔ Creates c.words := by
  have htext : Text.words c.text = c.words := words_spaced _
  have hstart : StartsWithWord c.text := by
    by_cases hnil : c.words = []
    · rw [text, hnil]
      simp [StartsWithWord, join]
    · exact (isSpaced_spaced hnil).tight.head_not_blank
  constructor
  · intro h
    rw [← htext]
    exact creates_of_matches h
  · intro h
    rw [← htext] at h
    exact matches_of_creates hstart h

/-- The text that the statement was kept as. -/
def source (c : Command) : Text := c.head ++ ' ' :: c.rest.getD []

/-- A change of letter case, or of the blanks around words. -/
inductive Rewritten : Text → Text → Prop
  | recased {t u : Text} (h : t.map caseless = u.map caseless) : Rewritten t u
  | respaced {a b : Text} (s t : Text) (ha : a ∈ gap) (hb : b ∈ gap) : Rewritten (s ++ (a ++ t)) (s ++ (b ++ t))
  | indented {b : Text} (t : Text) (hb : b ∈ gap) : Rewritten t (b ++ t)
  | extended {b : Text} (t : Text) (hb : b ∈ gap) : Rewritten t (t ++ b)

/-- The statement holds a text, all of it in its head, or cut at blanks. -/
inductive Holds : Command → Text → Prop
  | whole (t : Text) : Holds ⟨t, none⟩ t
  | cut (s t : Text) {a b : Text} (h : a ++ b ∈ gap) : Holds ⟨s ++ a, some (b ++ t)⟩ (s ++ (a ++ (b ++ t)))

/-- The words without their case. -/
def plainWords (t : Text) : List Text := (Text.words t).map (List.map caseless)

theorem plainWords_eq (t : Text) : plainWords t = Text.words (t.map caseless) :=
  (words_map_caseless t).symm

theorem plainWords_rewritten (h : Rewritten t u) : plainWords t = plainWords u := by
  cases h with
  | recased h => rw [plainWords_eq, plainWords_eq, h]
  | respaced s t ha hb => rw [plainWords, plainWords, words_append_blanks ha.1 ha.2, words_append_blanks hb.1 hb.2]
  | indented t hb => rw [plainWords, plainWords, words_blank_append hb.2]
  | extended t hb => rw [plainWords, plainWords, words_append_of_blank hb.2]

theorem plainWords_of_eqvGen (h : Relation.EqvGen Rewritten t u) : plainWords t = plainWords u := by
  induction h with
  | rel _ _ h => exact plainWords_rewritten h
  | refl => rfl
  | symm _ _ _ ih => exact ih.symm
  | trans _ _ _ _ _ ih ih' => exact ih.trans ih'

/-- It does not matter where a text was cut. -/
theorem Holds.words_eq (h : c.Holds t) : c.words = Text.words t := by
  cases h with
  | whole t =>
    have hspace : ∀ x ∈ " ".toList, isBlank x = true := List.all_eq_true.mp (by decide)
    exact words_append_of_blank hspace t
  | @cut s t a b hgap =>
    have hmiddle : ∀ x ∈ a ++ ' ' :: b, isBlank x = true := by
      intro x hx
      rcases List.mem_append.mp hx with hx | hx
      · exact hgap.2 x (List.mem_append_left b hx)
      · rcases List.mem_cons.mp hx with rfl | hx
        · rfl
        · exact hgap.2 x (List.mem_append_right a hx)
    have hsource : s ++ a ++ ' ' :: (b ++ t) = s ++ ((a ++ ' ' :: b) ++ t) := by simp
    have htext : s ++ (a ++ (b ++ t)) = s ++ ((a ++ b) ++ t) := by simp
    rw [htext, words_append_blanks hgap.1 hgap.2, ← words_append_blanks (by simp) hmiddle, ← hsource]
    rfl

theorem IsTarget.congr (h : IsTarget w) (hv : v.map caseless = w.map caseless) : IsTarget v := by
  obtain ⟨s, r, rfl, hs, hend⟩ := h
  rw [List.map_append] at hv
  obtain ⟨s', r', rfl, hs', hr'⟩ := List.map_eq_append_iff.mp hv
  refine ⟨s', r', rfl, by rwa [hs'], ?_⟩
  intro x hx
  cases r' with
  | nil => cases hx
  | cons y r' =>
    cases r with
    | nil => cases hr'
    | cons z r =>
      obtain rfl : y = x := by simpa using hx
      have hsame : caseless y = caseless z := (List.cons.inj hr').1
      rw [← isWord_caseless, hsame, isWord_caseless]
      exact hend z rfl

theorem Leads.congr {vs : List Text} (h : Leads ws) (hvs : vs.map (List.map caseless) = ws.map (List.map caseless)) :
    Leads vs := by
  induction h generalizing vs with
  | target hw =>
    obtain ⟨v, vs, rfl, hv, -⟩ := List.map_eq_cons_iff.mp hvs
    exact .target (hw.congr hv)
  | orReplace hv hw h ih =>
    obtain ⟨v, vs, rfl, hv', hvs⟩ := List.map_eq_cons_iff.mp hvs
    obtain ⟨w, vs, rfl, hw', hvs⟩ := List.map_eq_cons_iff.mp hvs
    exact .orReplace (hv'.trans hv) (hw'.trans hw) (ih hvs)
  | modifier hw h ih =>
    obtain ⟨v, vs, rfl, hv, hvs⟩ := List.map_eq_cons_iff.mp hvs
    exact .modifier (by rwa [hv]) (ih hvs)

theorem Creates.congr {vs : List Text} (h : Creates ws)
    (hvs : vs.map (List.map caseless) = ws.map (List.map caseless)) : Creates vs := by
  obtain ⟨hw, h⟩ := h
  obtain ⟨v, vs, rfl, hv, hvs⟩ := List.map_eq_cons_iff.mp hvs
  exact .mk (hv.trans hw) (h.congr hvs)

/-- A statement that was kept creates a table or an index if its words say so, or if the pattern stands at the front of
its text. Any other way to write its text, and to cut it, makes no difference. -/
theorem isSchema_exact (c : Command) :
    (c.isSchema = true ↔ Creates c.words) ∧ (c.isSchema = true ↔ Matches c.text) ∧
      ∀ (e : Command) (t u : Text), c.Holds t → e.Holds u → Relation.EqvGen Rewritten t u →
        c.isSchema = e.isSchema := by
  refine ⟨isSchema_iff, isSchema_iff.trans matches_text_iff.symm, ?_⟩
  intro e t u ht hu h
  have hwords : c.words.map (List.map caseless) = e.words.map (List.map caseless) := by
    rw [ht.words_eq, hu.words_eq]
    exact plainWords_of_eqvGen h
  rw [Bool.eq_iff_iff, isSchema_iff, isSchema_iff]
  constructor
  · intro hc
    exact hc.congr hwords.symm
  · intro he
    exact he.congr hwords

/-- The same statement cut at a blank, and whole in other letters on two lines. -/
theorem isSchema_exact_rewritten :
    (Command.mk "CREATE" (some " OR REPLACE TABLE(a INT)".toList)).isSchema = true ∧
      (Command.mk "create or\n  replace table(A int)" none).isSchema = true := by
  have hcut : (Command.mk "CREATE" (some " OR REPLACE TABLE(a INT)".toList)).Holds "CREATE OR REPLACE TABLE(a INT)" :=
    .cut "CREATE" "OR REPLACE TABLE(a INT)" (a := []) (b := " ") (mem_gap (by decide) (by decide))
  have hwhole := Holds.whole "create or\n  replace table(A int)".toList
  have hletters : Rewritten "CREATE OR REPLACE TABLE(a INT)" "create or replace table(A int)" :=
    .recased (by decide)
  have hlines : Rewritten "create or replace table(A int)" "create or\n  replace table(A int)" :=
    .respaced "create or" "replace table(A int)" (a := " ") (b := "\n  ")
      (mem_gap (by decide) (by decide)) (mem_gap (by decide) (by decide))
  have hsame := (isSchema_exact ⟨"CREATE", some " OR REPLACE TABLE(a INT)".toList⟩).2.2 _ _ _ hcut hwhole
    (.trans _ _ _ (.rel _ _ hletters) (.rel _ _ hlines))
  have hschema : (Command.mk "CREATE" (some " OR REPLACE TABLE(a INT)".toList)).isSchema = true := by decide
  exact ⟨hschema, hsame.symm.trans hschema⟩

end CodeManifest.Sql.Command
