import CodeManifest.Proofs.Text.Blank
import CodeManifest.Tool.TypeText
import Mathlib

namespace CodeManifest

namespace Text

/-- The angle brackets of a text come in pairs: none closes before it is opened, and all are closed. -/
structure IsBalanced (t : Text) : Prop where
  opened : ∀ s, s <+: t → s.count '>' ≤ s.count '<'
  closed : t.count '>' = t.count '<'

instance (t : Text) : Decidable t.IsBalanced :=
  decidable_of_iff ((∀ s ∈ t.inits, s.count '>' ≤ s.count '<') ∧ t.count '>' = t.count '<')
    ⟨fun h => ⟨fun s hs => h.1 s ((List.mem_inits s t).mpr hs), h.2⟩,
      fun h => ⟨fun s hs => h.opened s ((List.mem_inits s t).mp hs), h.closed⟩⟩

/-- The angle brackets of a text, in their order. -/
def brackets (t : Text) : Text := t.filter fun c => c = '<' || c = '>'

theorem brackets_append (s t : Text) : brackets (s ++ t) = brackets s ++ brackets t := List.filter_append s t

theorem count_brackets (t : Text) :
    (brackets t).count '<' = t.count '<' ∧ (brackets t).count '>' = t.count '>' :=
  ⟨List.count_filter (by decide), List.count_filter (by decide)⟩

theorem isBalanced_brackets {t : Text} : (brackets t).IsBalanced ↔ t.IsBalanced := by
  constructor
  · intro h
    refine ⟨fun s hs => ?_, ?_⟩
    · have hopened := h.opened (brackets s) (hs.filter _)
      rwa [(count_brackets s).1, (count_brackets s).2] at hopened
    · have hclosed := h.closed
      rwa [(count_brackets t).1, (count_brackets t).2] at hclosed
  · intro h
    refine ⟨fun s hs => ?_, ?_⟩
    · obtain ⟨u, hu, rfl⟩ := List.prefix_filter_iff.mp hs
      have hopened := h.opened u hu
      rwa [← (count_brackets u).1, ← (count_brackets u).2] at hopened
    · rw [(count_brackets t).1, (count_brackets t).2, h.closed]

/-- Only the angle brackets of a text count. -/
theorem isBalanced_congr {s t : Text} (h : brackets s = brackets t) : s.IsBalanced ↔ t.IsBalanced := by
  rw [← isBalanced_brackets, h, isBalanced_brackets]

theorem brackets_trim (t : Text) : brackets (trim t) = brackets t := by
  refine filter_trim (fun c hblank => ?_) t
  by_contra hbracket
  rcases Bool.or_eq_true_iff.mp (eq_true_of_ne_false hbracket) with hc | hc <;>
    simp [of_decide_eq_true hc, isBlank] at hblank

/-- A text that closes more than it opens somewhere closes a bracket behind pairs. -/
theorem exists_closing {s t : Text} (hs : s <+: t) (h : s.count '<' < s.count '>') :
    ∃ inside rest, t = inside ++ '>' :: rest ∧ inside.IsBalanced := by
  -- By induction on the text from its end: either something before the last character closes too much, or that does.
  induction t using List.reverseRecOn generalizing s with
  | nil =>
    rw [List.prefix_nil.mp hs] at h
    cases h
  | append_singleton t c ih =>
    by_cases hbefore : ∃ u, u <+: t ∧ u.count '<' < u.count '>'
    · obtain ⟨u, hu, hlt⟩ := hbefore
      obtain ⟨inside, rest, rfl, hinside⟩ := ih hu hlt
      exact ⟨inside, rest ++ [c], by simp, hinside⟩
    · have hopened : ∀ u, u <+: t → u.count '>' ≤ u.count '<' := fun u hu =>
        Nat.le_of_not_lt fun hlt => hbefore ⟨u, hu, hlt⟩
      obtain rfl : s = t ++ [c] :=
        (List.prefix_concat_iff.mp hs).resolve_right fun hs => hbefore ⟨s, hs, h⟩
      have hle := hopened t List.prefix_rfl
      rw [List.count_append, List.count_append] at h
      obtain rfl : c = '>' := by
        by_contra hc
        rw [List.count_eq_zero.mpr (by simpa using Ne.symm hc : '>' ∉ [c])] at h
        omega
      refine ⟨t, [], rfl, hopened, ?_⟩
      simp at h
      omega

end Text

namespace Tool

open TypeText

/-- The types that are known by a head with one argument. -/
inductive Generic
  | array
  | promise
  deriving DecidableEq

namespace Generic

def heads : Generic → List Text
  | array => ["Array", "ReadonlyArray"]
  | promise => ["Promise"]

/-- The words in front of the argument. -/
def words : Generic → Text
  | array => "Array of "
  | promise => "Promise resolving to "

/-- How an argument is written; only a promise may do without. -/
def shown (g : Generic) (inner : Text) : Text :=
  match g with
  | array => Text.trim inner
  | promise => if (Text.trim inner).isEmpty then "any" else Text.trim inner

def info (g : Generic) (inner : Text) : TypeInfo :=
  ⟨match g with | array => "array" | promise => "promise", some (g.words ++ g.shown inner), none⟩

end Generic

/-- A head with an argument in angle brackets. -/
def applied (head inner : Text) : Text := head ++ '<' :: (inner ++ ['>'])

theorem between?_eq_some {start stop t inner : Text} :
    between? start stop t = some inner ↔ t = start ++ (inner ++ stop) := by
  simp only [between?, Option.bind_eq_some_iff, Text.dropStart?_eq_some_iff, Text.dropStop?,
    List.isSuffixOf?_eq_some_iff_append_eq]
  constructor
  · rintro ⟨r, rfl, rfl⟩
    rfl
  · rintro rfl
    exact ⟨inner ++ stop, rfl, rfl⟩

theorem dropStop?_eq_none {stop t : Text} (h : ¬ stop <:+ t) : Text.dropStop? stop t = none := by
  cases hdrop : Text.dropStop? stop t with
  | none => rfl
  | some r => exact absurd ⟨r, List.isSuffixOf?_eq_some_iff_append_eq.mp hdrop⟩ h

/-- What ends with an angle bracket does not end with a square one. -/
theorem not_suffix_applied (head inner : Text) : ¬ "[]".toList <:+ applied head inner := by
  rintro ⟨r, hr⟩
  have hshape : applied head inner = (head ++ '<' :: inner) ++ ['>'] := by simp [applied]
  have hlast : some ']' = some '>' := by
    calc some ']' = (r ++ "[]".toList).getLast? := by rw [List.getLast?_append]; rfl
      _ = some '>' := by rw [hr, hshape, List.getLast?_concat]
  exact absurd hlast (by decide)

/-- What begins like a name is no union of string literals. -/
theorem isUnion_eq_false {c : Char} {t : Text} (hblank : Text.isBlank c = false) (hbar : c ≠ '|')
    (hdouble : c ≠ '"') (hsingle : c ≠ '\'') : isUnion (c :: t) = false := by
  have hfront : Text.dropStart? ['|'] (c :: t) = none := by simp [Text.dropStart?, hbar.symm]
  have hliteral : afterLiteral? (c :: t) = none := by
    simp [afterLiteral?, afterQuoted?, Text.dropStart?, hdouble.symm, hsingle.symm]
  have htrim : Text.trimLeft (c :: t) = c :: t := Text.trimLeft_eq_self.mpr (by simpa using hblank)
  rw [isUnion, hfront, Option.getD_none, htrim, hliteral]

/-- A head of an array stands alone in front of the argument. -/
theorem array_inside {head inner : Text} (hhead : head ∈ Generic.array.heads) :
    ((between? "Array<" ">" (applied head inner)).orElse fun _ =>
      between? "ReadonlyArray<" ">" (applied head inner)) = some inner := by
  rcases List.mem_pair.mp hhead with rfl | rfl
  · have harray : between? "Array<" ">" (applied "Array" inner) = some inner := between?_eq_some.mpr rfl
    rw [harray]
    rfl
  · have hreadonly : between? "ReadonlyArray<" ">" (applied "ReadonlyArray" inner) = some inner :=
      between?_eq_some.mpr rfl
    rw [hreadonly]
    rfl

theorem ofClean_array {head inner : Text} (hhead : head ∈ Generic.array.heads) (hinner : inner ≠ []) :
    TypeInfo.ofClean (applied head inner) = Generic.array.info inner := by
  have hunion : isUnion (applied head inner) = false := by
    rcases List.mem_pair.mp hhead with rfl | rfl <;>
      exact isUnion_eq_false rfl (by decide) (by decide) (by decide)
  have helement : element? (applied head inner) = some (Text.trim inner) := by
    rw [element?, dropStop?_eq_none (not_suffix_applied head inner)]
    simp only [array_inside hhead, Option.bind_some, List.isEmpty_iff, if_neg hinner]
  rw [TypeInfo.ofClean, if_neg (Bool.eq_false_iff.mp hunion)]
  simp only [helement]
  rfl

theorem ofClean_promise (inner : Text) :
    TypeInfo.ofClean (applied "Promise" inner) = Generic.promise.info inner := by
  have hunion : isUnion (applied "Promise" inner) = false :=
    isUnion_eq_false rfl (by decide) (by decide) (by decide)
  have helement : element? (applied "Promise" inner) = none := by
    rw [element?, dropStop?_eq_none (not_suffix_applied "Promise" inner)]
    rfl
  have hbetween : between? "Promise<" ">" (applied "Promise" inner) = some inner := between?_eq_some.mpr rfl
  rw [TypeInfo.ofClean, if_neg (Bool.eq_false_iff.mp hunion)]
  simp only [helement, hbetween]
  rfl

/-- An element type comes from square brackets or from a head. -/
theorem exists_of_element? {t e : Text} (hsuffix : ¬ "[]".toList <:+ t) (h : element? t = some e) :
    ∃ head ∈ Generic.array.heads, ∃ inner, t = applied head inner ∧ inner ≠ [] ∧ e = Text.trim inner := by
  rw [element?, dropStop?_eq_none hsuffix] at h
  obtain ⟨inner, hinside, he⟩ := Option.bind_eq_some_iff.mp h
  have hne : inner ≠ [] := by
    rintro rfl
    cases he
  have htrim : e = Text.trim inner := by simpa [hne] using he.symm
  cases harray : between? "Array<" ">" t with
  | some i =>
    rw [harray] at hinside
    obtain rfl : i = inner := by simpa using hinside
    exact ⟨"Array", List.mem_cons_self, i, between?_eq_some.mp harray, hne, htrim⟩
  | none =>
    rw [harray] at hinside
    have hreadonly : between? "ReadonlyArray<" ">" t = some inner := hinside
    exact ⟨"ReadonlyArray", by decide, inner, between?_eq_some.mp hreadonly, hne, htrim⟩

theorem words_not_builtIn (g : Generic) {t k x : Text} (h : builtIn.lookup t = some k) : t ≠ g.words ++ x := by
  have hkey : t ∈ builtIn.map Prod.fst := by
    obtain ⟨before, after, heq, -⟩ := List.lookup_eq_some_iff.mp h
    exact List.mem_map.mpr ⟨(t, k), by simp [heq], rfl⟩
  rintro rfl
  have hno : ∀ key ∈ builtIn.map Prod.fst, ¬ g.words <+: key := by cases g <;> decide
  exact hno _ hkey (List.prefix_append g.words x)

/-- The words of a description say which shape the type has. -/
theorem exists_of_description {g : Generic} {t x : Text} (hsuffix : ¬ "[]".toList <:+ t)
    (h : (TypeInfo.ofClean t).description = some (g.words ++ x)) :
    ∃ head ∈ g.heads, ∃ inner, t = applied head inner ∧ x = g.shown inner := by
  unfold TypeInfo.ofClean at h
  split at h
  · cases g <;> cases Option.some.inj h
  split at h
  · next e he =>
    cases g with
    | promise => cases Option.some.inj h
    | array =>
      obtain ⟨head, hhead, inner, ht, -, rfl⟩ := exists_of_element? hsuffix he
      exact ⟨head, hhead, inner, ht, (List.append_cancel_left (Option.some.inj h)).symm⟩
  split at h
  · next inner hinner =>
    cases g with
    | array => cases Option.some.inj h
    | promise =>
      exact ⟨"Promise", List.mem_cons_self, inner, between?_eq_some.mp hinner,
        (List.append_cancel_left (Option.some.inj h)).symm⟩
  split at h
  · cases g <;> cases Option.some.inj h
  split at h
  · next k hk =>
    dsimp only at h
    split at h
    · cases h
    · exact absurd (Option.some.inj h) (words_not_builtIn g hk)
  · cases h

theorem ofText_applied {g : Generic} {t head inner : Text} (hhead : head ∈ g.heads)
    (hclean : clean t = applied head inner) (hinner : g = .array → inner ≠ []) :
    TypeInfo.ofText (some t) = g.info inner := by
  have hne : (applied head inner).isEmpty = false := by simp [applied]
  simp only [TypeInfo.ofText, hclean, hne]
  cases g with
  | array => exact ofClean_array hhead (hinner rfl)
  | promise =>
    obtain rfl := List.mem_singleton.mp hhead
    exact ofClean_promise inner

theorem brackets_head {g : Generic} {head : Text} (h : head ∈ g.heads) : Text.brackets head = [] := by
  have hall : ∀ head ∈ g.heads, Text.brackets head = [] := by cases g <;> decide
  exact hall head h

theorem brackets_shown (g : Generic) (inner : Text) : Text.brackets (g.shown inner) = Text.brackets inner := by
  have htrim := Text.brackets_trim inner
  cases g with
  | array => exact htrim
  | promise =>
    show Text.brackets (if (Text.trim inner).isEmpty then _ else _) = _
    split
    · next hempty =>
      rw [List.isEmpty_iff.mp hempty] at htrim
      exact htrim
    · exact htrim

/-- The bracket that a head opens is closed behind its argument, which is the whole inside exactly if that is
balanced. -/
theorem exists_argument {head inner : Text} (hhead : Text.brackets head = [])
    (h : (applied head inner).IsBalanced) :
    ∃ arg rest : Text, applied head inner = head ++ '<' :: (arg ++ '>' :: rest) ∧ arg.IsBalanced ∧
      (inner.IsBalanced ↔ rest = []) ∧ (rest = [] → inner = arg) := by
  have hclosed : (inner ++ ['>']).count '<' < (inner ++ ['>']).count '>' := by
    have hopen : Text.IsBalanced ('<' :: (inner ++ ['>'])) := by
      refine (Text.isBalanced_congr ?_).mp h
      rw [applied, Text.brackets_append, hhead, List.nil_append]
    have hcount := hopen.closed
    rw [List.count_cons_self, List.count_cons_of_ne (by decide)] at hcount
    omega
  obtain ⟨arg, rest, heq, harg⟩ := Text.exists_closing List.prefix_rfl hclosed
  have hwhole (hrest : rest = []) : inner = arg := by
    subst hrest
    exact (List.append_inj_left' heq rfl)
  refine ⟨arg, rest, by rw [applied, heq], harg, ⟨fun hinner => ?_, fun hrest => hwhole hrest ▸ harg⟩, hwhole⟩
  -- If the closing bracket stood inside, it would close one too much there.
  by_contra hrest
  have hinside : arg ++ ['>'] <+: inner := by
    have hprefix : arg ++ ['>'] <+: inner ++ ['>'] := ⟨rest, by rw [heq]; simp⟩
    refine (List.prefix_concat_iff.mp hprefix).resolve_left fun hall => hrest ?_
    have hlength := congrArg List.length (hall.trans heq)
    exact List.length_eq_zero_iff.mp (by simpa using hlength)
  have hle := hinner.opened _ hinside
  rw [List.count_append, List.count_append, harg.closed] at hle
  simp at hle

/-- A head around an argument is reported with it, and whatever is reported as an array or a promise and does
not end with square brackets is a head around an inside. Of a text with its brackets in pairs, the inside is the
argument of the head exactly if the bracket of the head is closed at the end of the text; else what is reported
is cut off and has no pairs. An import qualifier makes no difference to that unless it has brackets itself. -/
theorem generic_argument (t : Text) (g : Generic) :
    (∀ head ∈ g.heads, ∀ inner, clean t = applied head inner → (g = .array → inner ≠ []) →
      TypeInfo.ofText (some t) = g.info inner) ∧
    (∀ x, (TypeInfo.ofText (some t)).description = some (g.words ++ x) → ¬ "[]".toList <:+ clean t →
      ∃ head ∈ g.heads, ∃ inner, clean t = applied head inner ∧ x = g.shown inner ∧
        ((clean t).IsBalanced → ∃ arg rest : Text, clean t = head ++ '<' :: (arg ++ '>' :: rest) ∧ arg.IsBalanced ∧
          (x.IsBalanced ↔ rest = []) ∧ (rest = [] → x = g.shown arg))) ∧
    (Text.brackets (dropQualifiers t) = Text.brackets t → ((clean t).IsBalanced ↔ t.IsBalanced)) := by
  refine ⟨fun head hhead inner hclean hinner => ofText_applied hhead hclean hinner, fun x hx hsuffix => ?_,
    fun hkept => ?_⟩
  · have hofClean : (TypeInfo.ofClean (clean t)).description = some (g.words ++ x) := by
      unfold TypeInfo.ofText at hx
      dsimp only at hx
      split at hx
      · cases hx
      · exact hx
    obtain ⟨head, hhead, inner, hclean, rfl⟩ := exists_of_description hsuffix hofClean
    refine ⟨head, hhead, inner, hclean, rfl, fun hbalanced => ?_⟩
    rw [hclean] at hbalanced ⊢
    obtain ⟨arg, rest, heq, harg, hiff, hwhole⟩ := exists_argument (brackets_head hhead) hbalanced
    exact ⟨arg, rest, heq, harg, (Text.isBalanced_congr (brackets_shown g inner)).trans hiff,
      fun hrest => congrArg g.shown (hwhole hrest)⟩
  · exact Text.isBalanced_congr ((Text.brackets_trim (dropQualifiers t)).trans hkept)

/-- A text where no import begins has no qualifier to drop. -/
theorem dropQualifiers_eq_self {t : Text} (h : Text.occursIn "import(" t = false) : dropQualifiers t = t := by
  induction t with
  | nil => rw [dropQualifiers.eq_def]; rfl
  | cons c t ih =>
    obtain ⟨hhere, hlater⟩ := Bool.or_eq_false_iff.mp h
    have hno : afterQualifier? (c :: t) = none := by
      cases hdrop : Text.dropStart? "import(" (c :: t) with
      | none => simp only [afterQualifier?, hdrop]
      | some r =>
        have hprefix : "import(".toList <+: c :: t := ⟨r, (Text.dropStart?_eq_some_iff.mp hdrop).symm⟩
        rw [List.isPrefixOf_iff_prefix.mpr hprefix] at hhere
        cases hhere
    rw [dropQualifiers.eq_def]
    split
    · next r hr => simp [hno] at hr
    · exact congrArg (c :: ·) (ih hlater)

/-- Two promises or two arrays with a bar between them are reported as one of a text without pairs. -/
theorem union_cut :
    Text.IsBalanced "Promise<A> | Promise<B>" ∧
    TypeInfo.ofText (some "Promise<A> | Promise<B>") = Generic.promise.info "A> | Promise<B" ∧
    Text.IsBalanced "Array<A> | Array<B>" ∧
    TypeInfo.ofText (some "Array<A> | Array<B>") = Generic.array.info "A> | Array<B" ∧
    ¬ Text.IsBalanced "A> | Promise<B" ∧ ¬ Text.IsBalanced "A> | Array<B" := by
  have hpromise : clean "Promise<A> | Promise<B>" = applied "Promise" "A> | Promise<B" := by
    rw [clean, dropQualifiers_eq_self (by decide)]
    decide
  have harray : clean "Array<A> | Array<B>" = applied "Array" "A> | Array<B" := by
    rw [clean, dropQualifiers_eq_self (by decide)]
    decide
  exact ⟨by decide, ofText_applied List.mem_cons_self hpromise nofun, by decide,
    ofText_applied List.mem_cons_self harray (by decide), by decide, by decide⟩

end Tool

end CodeManifest
