import CodeManifest.Proofs.Tool.Generic
import CodeManifest.Text.Line

namespace CodeManifest.Tool

namespace TypeText

theorem afterQualifier?_eq_some {t r : Text} : afterQualifier? t = some r ↔
    ∃ inside, ')' ∉ inside ∧ t = "import(".toList ++ (inside ++ (").".toList ++ r)) := by
  constructor
  · intro h
    unfold afterQualifier? at h
    split at h
    · cases h
    · next u hu =>
      refine ⟨u.takeWhile (· ≠ ')'), fun hc => ?_, ?_⟩
      · simpa using List.mem_takeWhile_imp hc
      · rw [Text.dropStart?_eq_some_iff.mp hu, ← Text.dropStart?_eq_some_iff.mp h,
          List.takeWhile_append_dropWhile]
  · rintro ⟨inside, hinside, rfl⟩
    have hall : ∀ c ∈ inside, decide (c ≠ ')') = true := fun c hc =>
      decide_eq_true fun he => hinside (he ▸ hc)
    rw [afterQualifier?, Text.dropStart?_eq_some_iff.mpr rfl]
    simp only [List.dropWhile_append_of_pos hall]
    exact Text.dropStart?_eq_some_iff.mpr rfl

theorem dropQualifiers_nil : dropQualifiers [] = [] := by
  rw [dropQualifiers.eq_def]
  rfl

theorem dropQualifiers_of_some {t r : Text} (h : afterQualifier? t = some r) :
    dropQualifiers t = dropQualifiers r := by
  rw [dropQualifiers.eq_def]
  split
  · next r' hr' => rw [Option.some.inj (h.symm.trans hr')]
  · next hnone => simp [h] at hnone

theorem dropQualifiers_of_none {c : Char} {t : Text} (h : afterQualifier? (c :: t) = none) :
    dropQualifiers (c :: t) = c :: dropQualifiers t := by
  rw [dropQualifiers.eq_def]
  split
  · next r hr => simp [h] at hr
  · rfl

/-- No qualifier begins in the first text and ends in the second. -/
def ReadApart (s t : Text) : Prop :=
  ∀ u v inside, u <:+ s → u ≠ [] → v <+: t → v ≠ [] → ')' ∉ inside →
    u ++ v ≠ "import(".toList ++ (inside ++ ").".toList)

theorem ReadApart.of_suffix {s s' t : Text} (h : ReadApart s t) (hs : s' <:+ s) : ReadApart s' t :=
  fun u v inside hu => h u v inside (hu.trans hs)

theorem dropQualifiers_append {s t : Text} (h : ReadApart s t) :
    dropQualifiers (s ++ t) = dropQualifiers s ++ dropQualifiers t := by
  fun_induction dropQualifiers s with
  | case1 s r hr ih =>
    obtain ⟨inside, hinside, rfl⟩ := afterQualifier?_eq_some.mp hr
    have hfirst : afterQualifier? (("import(".toList ++ (inside ++ (").".toList ++ r))) ++ t) = some (r ++ t) :=
      afterQualifier?_eq_some.mpr ⟨inside, hinside, by simp⟩
    have hsuffix : r <:+ "import(".toList ++ (inside ++ (").".toList ++ r)) :=
      ⟨"import(".toList ++ (inside ++ ").".toList), by simp⟩
    rw [dropQualifiers_of_some hfirst]
    exact ih (h.of_suffix hsuffix)
  | case2 => rfl
  | case3 c s hnone ih =>
    have hfirst : afterQualifier? (c :: (s ++ t)) = none := by
      by_contra hsome
      obtain ⟨r, hr⟩ := Option.ne_none_iff_exists'.mp hsome
      obtain ⟨inside, hinside, heq⟩ := afterQualifier?_eq_some.mp hr
      have hsplit : (c :: s) ++ t = ("import(".toList ++ (inside ++ ").".toList)) ++ r := by
        simpa using heq
      -- The qualifier in front ends in the first text, or goes across.
      rcases List.append_eq_append_iff.mp hsplit with ⟨v, hv, ht⟩ | ⟨r', hs, -⟩
      · by_cases hempty : v = []
        · subst hempty
          have hhere : afterQualifier? (c :: s) = some [] :=
            afterQualifier?_eq_some.mpr ⟨inside, hinside, by simpa using hv.symm⟩
          simp [hnone] at hhere
        · exact h (c :: s) v inside (List.suffix_refl _) (by simp) ⟨r, ht.symm⟩ hempty hinside hv.symm
      · have hhere : afterQualifier? (c :: s) = some r' :=
          afterQualifier?_eq_some.mpr ⟨inside, hinside, by simpa using hs⟩
        simp [hnone] at hhere
    have hsuffix : s <:+ c :: s := List.suffix_cons c s
    rw [List.cons_append, dropQualifiers_of_none hfirst, ih (h.of_suffix hsuffix)]
    rfl

theorem mem_of_append_eq {u v r : Text} (hu : u ≠ []) (h : u ++ v = "import(".toList ++ r) : 'i' ∈ u := by
  cases u with
  | nil => exact absurd rfl hu
  | cons c u =>
    have hc : c = 'i' := (List.cons.inj h).1
    simp [hc]

theorem readApart_of_notMem_left {s t : Text} (h : 'i' ∉ s) : ReadApart s t := by
  intro u v inside hu hne _ _ _ heq
  exact h (hu.subset (mem_of_append_eq hne heq))

theorem readApart_of_notMem_right {s t : Text} (h : '.' ∉ t) : ReadApart s t := by
  intro u v inside _ _ hv hne _ heq
  have hshape : "import(".toList ++ (inside ++ ").".toList) = ("import(".toList ++ (inside ++ [')'])) ++ ['.'] := by
    simp
  have hlast : v.getLast? = some '.' := by
    rw [← List.getLast?_append_of_ne_nil u hne, heq, hshape, List.getLast?_concat]
  exact h (hv.subset (List.mem_of_getLast? hlast))

/-- An import that begins in a text with none in it would go on behind the text. -/
theorem readApart_of_name {s t : Text} (hs : Text.occursIn "import(" s = false)
    (ht : ∀ c ∈ t.head?, c ∉ "import(".toList) : ReadApart s t := by
  have hno : ¬ "import(".toList <:+: s := by
    rw [← Text.occursIn_eq_true_iff, hs]
    exact Bool.false_ne_true
  intro u v inside hu _ hv hne _ heq
  rcases List.append_eq_append_iff.mp heq with ⟨rest, hopen, hrest⟩ | ⟨rest, hrest, -⟩
  · cases rest with
    | nil =>
      rw [List.append_nil] at hopen
      exact hno (hopen ▸ hu.isInfix)
    | cons c rest =>
      obtain ⟨w, rfl⟩ := hv
      have hhead : c ∈ (v ++ w).head? := by simp [hrest]
      exact ht c hhead (hopen ▸ by simp)
  · have hfront : "import(".toList <+: u := ⟨rest, hrest.symm⟩
    exact hno (hfront.isInfix.trans hu.isInfix)

/-- What ends like a qualifier ends with all that began in it. -/
theorem readApart_of_closed (s t : Text) : ReadApart (s ++ ").".toList) t := by
  intro u v inside hu hne _ hv hinside heq
  have hopen : ')' ∉ "import(".toList ++ inside := by simpa using hinside
  have hlong : 0 < v.length := List.length_pos_iff.mpr hv
  obtain ⟨w, hw⟩ := hu
  rcases List.append_eq_append_iff.mp hw with ⟨a, -, hu⟩ | ⟨a, -, hu⟩
  · have hshape : a ++ (").".toList ++ v) = ("import(".toList ++ inside) ++ ").".toList := by
      simpa [hu] using heq
    -- The bracket behind `a` would stand within the qualifier.
    rcases List.append_eq_append_iff.mp hshape with ⟨b, hb, hrest⟩ | ⟨b, -, hrest⟩
    · cases b with
      | nil =>
        have hlength := congrArg List.length hrest
        simp only [List.length_append, List.length_nil] at hlength
        omega
      | cons c b =>
        have hc : ')' = c := (List.cons.inj hrest).1
        rw [hb, ← hc] at hopen
        exact hopen (List.mem_append_right a List.mem_cons_self)
    · have hlength := congrArg List.length hrest
      simp only [List.length_append] at hlength
      omega
  · have hi : 'i' ∈ ").".toList := hu ▸ List.mem_append_right a (mem_of_append_eq hne heq)
    exact absurd hi (by decide)

theorem dropQualifiers_of_notMem {s : Text} (h : 'i' ∉ s) : dropQualifiers s = s := by
  refine dropQualifiers_eq_self ?_
  rw [← Bool.not_eq_true, Text.occursIn_eq_true_iff]
  exact fun hin => h (hin.subset List.mem_cons_self)

theorem dropQualifiers_mark {s : Text} (h : 'i' ∉ s) (t : Text) :
    dropQualifiers (s ++ t) = s ++ dropQualifiers t := by
  rw [dropQualifiers_append (readApart_of_notMem_left h), dropQualifiers_of_notMem h]

theorem clean_eq_self {t : Text} (himport : Text.occursIn "import(" t = false) (htrim : Text.trim t = t) :
    clean t = t := by
  rw [clean, dropQualifiers_eq_self himport, htrim]

/-- Blanks around the text of a type make no difference. -/
theorem clean_blank {before after : Text} (hbefore : ∀ c ∈ before, Text.isBlank c = true)
    (hafter : ∀ c ∈ after, Text.isBlank c = true) (t : Text) : clean (before ++ t ++ after) = clean t := by
  have hfront : 'i' ∉ before := fun h => by cases hbefore 'i' h
  have hback : '.' ∉ after := fun h => by cases hafter '.' h
  have hkept : dropQualifiers after = after := dropQualifiers_of_notMem fun h => by cases hafter 'i' h
  rw [clean, dropQualifiers_append (readApart_of_notMem_right hback), dropQualifiers_mark hfront, hkept,
    Text.trim_append_blank hafter, Text.trim_blank_append hbefore, clean]

/-- A qualifier with the specifier of a module in quotes. -/
def qualifier (specifier : Text) : Text := "import(".toList ++ (('"' :: (specifier ++ ['"'])) ++ ").".toList)

/-- Qualifiers one after the other, with blanks around them. -/
inductive IsRow : Text → Prop
  | nil : IsRow []
  | blank {c : Char} {t : Text} (hc : Text.isBlank c = true) (h : IsRow t) : IsRow (c :: t)
  | qualifier {inside t : Text} (hinside : ')' ∉ inside) (h : IsRow t) :
      IsRow ("import(".toList ++ (inside ++ (").".toList ++ t)))

theorem afterQualifier?_cons_of_ne {c : Char} (hc : c ≠ 'i') (t : Text) : afterQualifier? (c :: t) = none := by
  by_contra hsome
  obtain ⟨r, hr⟩ := Option.ne_none_iff_exists'.mp hsome
  obtain ⟨inside, -, heq⟩ := afterQualifier?_eq_some.mp hr
  exact hc (List.cons.inj heq).1

/-- Nothing but blanks is left of a row, and of nothing else. -/
theorem isRow_iff {t : Text} : IsRow t ↔ ∀ c ∈ dropQualifiers t, Text.isBlank c = true := by
  constructor
  · intro h
    induction h with
    | nil => simp [dropQualifiers_nil]
    | @blank c t hc _ ih =>
      have hne : c ≠ 'i' := by
        rintro rfl
        cases hc
      rw [dropQualifiers_of_none (afterQualifier?_cons_of_ne hne t)]
      exact List.forall_mem_cons.mpr ⟨hc, ih⟩
    | qualifier hinside _ ih =>
      rwa [dropQualifiers_of_some (afterQualifier?_eq_some.mpr ⟨_, hinside, rfl⟩)]
  · intro h
    fun_induction dropQualifiers t with
    | case1 t r hr ih =>
      obtain ⟨inside, hinside, rfl⟩ := afterQualifier?_eq_some.mp hr
      exact .qualifier hinside (ih h)
    | case2 => exact .nil
    | case3 c t _ ih =>
      obtain ⟨hc, ht⟩ := List.forall_mem_cons.mp h
      exact .blank hc (ih ht)

theorem dropQualifiers_qualifier {s : Text} (h : ')' ∉ s) : dropQualifiers (qualifier s) = [] := by
  have hinside : ')' ∉ '"' :: (s ++ ['"']) := by simp [h]
  have hshape : qualifier s = "import(".toList ++ (('"' :: (s ++ ['"'])) ++ (").".toList ++ [])) := by
    rw [List.append_nil]
    rfl
  have hwhole : afterQualifier? (qualifier s) = some [] := afterQualifier?_eq_some.mpr ⟨_, hinside, hshape⟩
  rw [dropQualifiers_of_some hwhole, dropQualifiers_nil]

/-- Behind a closing bracket without a further import a row does not go on. -/
theorem not_isRow_closed {t : Text} (h : Text.occursIn "import(" t = false) : ¬ IsRow (t ++ ").".toList) := by
  intro hrow
  have hkept : dropQualifiers (t ++ ").".toList) = t ++ ").".toList := by
    have hend : Text.occursIn "import(" ").".toList = false := by decide
    have hhead : ∀ c ∈ ").".toList.head?, c ∉ "import(".toList := by
      intro c hc
      obtain rfl : ')' = c := Option.some.inj hc
      decide
    rw [dropQualifiers_append (readApart_of_name h hhead), dropQualifiers_eq_self h, dropQualifiers_eq_self hend]
  have hmem : ')' ∈ t ++ ").".toList := List.mem_append_right t List.mem_cons_self
  have hblank := isRow_iff.mp hrow
  rw [hkept] at hblank
  cases hblank ')' hmem

theorem occursIn_quoted {s : Text} (h : Text.occursIn "import(" s = false) :
    Text.occursIn "import(" ('"' :: (s ++ ['"'])) = false := by
  rw [← Bool.not_eq_true, Text.occursIn_eq_true_iff] at h ⊢
  intro hin
  rcases List.infix_cons_iff.mp hin with hfront | hin
  · obtain ⟨r, hr⟩ := hfront
    cases (List.cons.inj hr).1
  · rcases List.infix_concat_iff.mp hin with hend | hin
    · obtain ⟨r, hr⟩ := hend
      have hlast := congrArg List.getLast? hr
      rw [List.getLast?_concat, List.getLast?_append_of_ne_nil r (by decide)] at hlast
      exact absurd hlast (by decide)
    · exact h hin

/-- Unless there is an import in the specifier itself, a closing bracket in it ends the row. -/
theorem isRow_qualifier_iff {s : Text} (hs : Text.occursIn "import(" s = false) :
    IsRow (qualifier s) ↔ ')' ∉ s := by
  constructor
  · intro hrow
    generalize hq : qualifier s = q at hrow
    cases hrow with
    | nil => cases hq
    | blank hc _ =>
      obtain rfl := (List.cons.inj hq).1
      cases hc
    | @qualifier inside t hinside hrow =>
      have hsplit : inside ++ (").".toList ++ t) = ('"' :: (s ++ ['"'])) ++ ").".toList :=
        (List.append_cancel_left hq).symm
      have hnot (hquoted : ')' ∉ '"' :: (s ++ ['"'])) : ')' ∉ s := by
        simpa using hquoted
      rcases List.append_eq_append_iff.mp hsplit with ⟨b, hb, hrest⟩ | ⟨b, rfl, -⟩
      · match b, hb, hrest with
        | [], hb, _ => exact hnot (by rwa [hb, List.append_nil])
        | [c], _, hrest =>
          have hdot : '.' = ')' := (List.cons.inj (List.cons.inj hrest).2).1
          cases hdot
        | c :: d :: b, hb, hrest =>
          have ht : t = b ++ ").".toList := (List.cons.inj (List.cons.inj hrest).2).2
          have hsuffix : b <:+: '"' :: (s ++ ['"']) := ⟨inside ++ [c, d], [], by simp [hb]⟩
          have hb : Text.occursIn "import(" b = false := by
            have hquoted := occursIn_quoted hs
            rw [← Bool.not_eq_true, Text.occursIn_eq_true_iff] at hquoted ⊢
            exact fun hin => hquoted (hin.trans hsuffix)
          exact absurd (ht ▸ hrow) (not_isRow_closed hb)
      · exact hnot fun hc => hinside (List.mem_append_left b hc)
  · intro h
    rw [isRow_iff, dropQualifiers_qualifier h]
    simp

end TypeText

open TypeText

/-- What stands between two types: the bar of a union, or the comma between arguments. -/
inductive Separator
  | bar
  | comma

def Separator.text : Separator → Text
  | bar => " | "
  | comma => ", "

/-- A type as it is written: a name, which is any text without an import and may have the specifier of a module
in front of it, types with a separator between them, or a type with arguments. -/
inductive TypeExpr
  | name (specifier : Option Text) (base : Text) (noImport : Text.occursIn "import(" base = false)
  | joined (separator : Separator) (left right : TypeExpr)
  | generic (head arguments : TypeExpr)

namespace TypeExpr

def specifiers : TypeExpr → List Text
  | name specifier _ _ => specifier.toList
  | joined _ left right => left.specifiers ++ right.specifiers
  | generic head arguments => head.specifiers ++ arguments.specifiers

/-- The text of a type where `f` says how its specifiers are written. -/
def render (f : Text → Text) : TypeExpr → Text
  | name specifier base _ => specifier.elim [] f ++ base
  | joined separator left right => left.render f ++ (separator.text ++ right.render f)
  | generic head arguments => applied (head.render f) (arguments.render f)

def text (e : TypeExpr) : Text := e.render qualifier

/-- The text of a type without its specifiers. -/
def bare (e : TypeExpr) : Text := e.render fun _ => []

theorem render_congr {f g : Text → Text} {e : TypeExpr} (h : ∀ s ∈ e.specifiers, f s = g s) :
    e.render f = e.render g := by
  induction e with
  | name specifier base _ => cases specifier <;> simp_all [render, specifiers]
  | joined separator left right ihl ihr =>
    obtain ⟨hl, hr⟩ := List.forall_mem_append.mp h
    simp only [render, ihl hl, ihr hr]
  | generic head arguments ihh iha =>
    obtain ⟨hh, ha⟩ := List.forall_mem_append.mp h
    simp only [render, ihh hh, iha ha]

/-- What is written for a specifier is added to the characters that count. -/
theorem length_filter_render (p : Char → Bool) (f : Text → Text) (e : TypeExpr) :
    ((e.render f).filter p).length =
      ((e.render fun _ => []).filter p).length + (e.specifiers.map fun s => ((f s).filter p).length).sum := by
  induction e with
  | name specifier base _ => cases specifier <;> simp [render, specifiers, Nat.add_comm]
  | joined separator left right ihl ihr =>
    simp only [render, specifiers, List.filter_append, List.length_append, List.map_append,
      List.sum_append, ihl, ihr]
    omega
  | generic head arguments ihh iha =>
    have happlied (h as : Text) : ((applied h as).filter p).length =
        (h.filter p).length + (['<'].filter p).length + (as.filter p).length + (['>'].filter p).length := by
      simp [applied, List.filter_cons]
      split <;> simp <;> omega
    simp only [render, specifiers, happlied, List.map_append, List.sum_append, ihh, iha]
    omega

/-- Each specifier of a type is read apart from all the rest. -/
theorem dropQualifiers_render {f g : Text → Text}
    (hfg : ∀ s t, dropQualifiers (f s ++ t) = g s ++ dropQualifiers t) (e : TypeExpr) {t : Text}
    (ht : ∀ c ∈ t.head?, c ∉ "import(".toList) :
    dropQualifiers (e.render f ++ t) = e.render g ++ dropQualifiers t := by
  induction e generalizing t with
  | name specifier base noImport =>
    have hbase : dropQualifiers (base ++ t) = base ++ dropQualifiers t := by
      rw [dropQualifiers_append (readApart_of_name noImport ht), dropQualifiers_eq_self noImport]
    cases specifier with
    | none => exact hbase
    | some s => simp [render, hfg, hbase]
  | joined separator left right ihl ihr =>
    have hmark : 'i' ∉ separator.text := by cases separator <;> decide
    have hhead : ∀ c ∈ (separator.text ++ (right.render f ++ t)).head?, c ∉ "import(".toList := by
      cases separator <;> simp [Separator.text]
    simp only [render, List.append_assoc]
    rw [ihl hhead, dropQualifiers_mark hmark, ihr ht]
  | generic head arguments ihh iha =>
    have hopen : ∀ c ∈ (['<'] ++ (arguments.render f ++ (['>'] ++ t))).head?, c ∉ "import(".toList := by simp
    have hclose : ∀ c ∈ (['>'] ++ t).head?, c ∉ "import(".toList := by simp
    have hshape (f : Text → Text) (t : Text) : (generic head arguments).render f ++ t =
        head.render f ++ (['<'] ++ (arguments.render f ++ (['>'] ++ t))) := by
      simp [render, applied]
    rw [hshape f, ihh hopen, dropQualifiers_mark (by decide), iha hclose, dropQualifiers_mark (by decide),
      hshape g]

theorem clean_text (e : TypeExpr) :
    clean e.text = Text.trim (e.render fun s => dropQualifiers (qualifier s)) := by
  have hapart (s t : Text) : dropQualifiers (qualifier s ++ t) = dropQualifiers (qualifier s) ++ dropQualifiers t := by
    have hshape : qualifier s = ("import(".toList ++ '"' :: (s ++ ['"'])) ++ ").".toList :=
      (List.append_assoc _ _ _).symm
    rw [hshape]
    exact dropQualifiers_append (readApart_of_closed _ t)
  have hwhole := dropQualifiers_render hapart e (t := []) (by simp)
  rw [List.append_nil, dropQualifiers_nil, List.append_nil] at hwhole
  exact congrArg Text.trim hwhole

theorem clean_bare (e : TypeExpr) : clean e.bare = Text.trim e.bare := by
  have hwhole := dropQualifiers_render (f := fun _ => []) (g := fun _ => []) (fun _ _ => rfl) e (t := []) (by simp)
  rw [List.append_nil, dropQualifiers_nil, List.append_nil] at hwhole
  exact congrArg Text.trim hwhole

theorem clean_eq_of_notMem {e : TypeExpr} (h : ∀ s ∈ e.specifiers, ')' ∉ s) : clean e.text = clean e.bare := by
  have hnone : ∀ s ∈ e.specifiers, dropQualifiers (qualifier s) = [] := fun s hs => dropQualifiers_qualifier (h s hs)
  rw [clean_text, clean_bare, render_congr hnone]
  rfl

theorem isRow_of_clean_eq {e : TypeExpr} (h : clean e.text = clean e.bare) {s : Text} (hs : s ∈ e.specifiers) :
    IsRow (qualifier s) := by
  let p : Char → Bool := fun c => !Text.isBlank c
  have hp : ∀ c, Text.isBlank c = true → p c = false := fun c hc => by simp [p, hc]
  have hsame : ((e.render fun s => dropQualifiers (qualifier s)).filter p).length = (e.bare.filter p).length := by
    rw [clean_text, clean_bare] at h
    rw [← Text.filter_trim hp, h, Text.filter_trim hp]
  rw [length_filter_render, bare, Nat.add_eq_left, List.sum_eq_zero_iff] at hsame
  have hnone := hsame _ (List.mem_map_of_mem hs)
  rw [List.length_eq_zero_iff, List.filter_eq_nil_iff] at hnone
  exact isRow_iff.mpr fun c hc => by simpa [p] using hnone c hc

end TypeExpr

/-- Where no specifier has a closing bracket in it, a type is cleaned as if it had no qualifiers, and where no
specifier has an import in it, only then. In general what vanishes is a row of qualifiers: a specifier does so in
front of a single name exactly if its closing brackets are those of qualifiers with nothing but blanks
between them, and no other specifier vanishes anywhere. -/
theorem qualifiers_vanish (e : TypeExpr) :
    ((∀ s ∈ e.specifiers, ')' ∉ s) → clean e.text = clean e.bare) ∧
    ((∀ s ∈ e.specifiers, Text.occursIn "import(" s = false) →
      (clean e.text = clean e.bare ↔ ∀ s ∈ e.specifiers, ')' ∉ s)) ∧
    (clean e.text = clean e.bare → ∀ s ∈ e.specifiers, IsRow (qualifier s)) ∧
    (∀ s base h, e = .name (some s) base h → IsRow (qualifier s) → clean e.text = clean e.bare) := by
  refine ⟨TypeExpr.clean_eq_of_notMem, fun hplain => ⟨fun h s hs => ?_, TypeExpr.clean_eq_of_notMem⟩,
    fun h s hs => TypeExpr.isRow_of_clean_eq h hs, ?_⟩
  · exact (isRow_qualifier_iff (hplain s hs)).mp (TypeExpr.isRow_of_clean_eq h hs)
  · rintro s base hbase rfl hrow
    rw [TypeExpr.clean_text, TypeExpr.clean_bare]
    exact Text.trim_blank_append (isRow_iff.mp hrow) base

/-- A type whose head and arguments come from modules. -/
def imported : TypeExpr :=
  .generic (.name (some "./map") "Map" (by decide))
    (.joined .comma (.name (some "./key") "Key" (by decide)) (.name (some "../value") "Value" (by decide)))

theorem qualifiers_vanish_imported :
    imported.text = "import(\"./map\").Map<import(\"./key\").Key, import(\"../value\").Value>".toList ∧
    imported.bare = "Map<Key, Value>".toList ∧ (∀ s ∈ imported.specifiers, ')' ∉ s) ∧
    clean imported.text = clean imported.bare := by
  have hspecifiers : ∀ s ∈ imported.specifiers, ')' ∉ s := by decide
  exact ⟨rfl, rfl, hspecifiers, (qualifiers_vanish imported).1 hspecifiers⟩

/-- A specifier with a group of routes in it keeps the qualifier where it stands. -/
theorem routeGroup_kept :
    let specifier : Text := "./(admin)/page"
    '"' ∉ specifier ∧ (∀ c ∈ specifier, Text.isLineEnd c = false) ∧ Text.occursIn "import(" "User" = false ∧
    clean (qualifier specifier ++ "User".toList) = "import(\"./(admin)/page\").User".toList ∧
    clean (qualifier specifier ++ "User".toList) ≠ clean "User" := by
  intro specifier
  have hrest : Text.occursIn "import(" "mport(\"./(admin)/page\").User" = false := by decide
  have hfront : afterQualifier? "import(\"./(admin)/page\").User" = none := by decide
  have hkept : clean (qualifier specifier ++ "User".toList) = "import(\"./(admin)/page\").User".toList := by
    have hdrop : dropQualifiers (qualifier specifier ++ "User".toList) = "import(\"./(admin)/page\").User".toList :=
      (dropQualifiers_of_none hfront).trans (congrArg ('i' :: ·) (dropQualifiers_eq_self hrest))
    rw [clean, hdrop]
    decide
  have hplain : clean "User" = "User".toList := by
    rw [clean, dropQualifiers_eq_self (by decide)]
    decide
  refine ⟨by decide, by simp [specifier, Text.isLineEnd], by decide, hkept, ?_⟩
  rw [hkept, hplain]
  decide

end CodeManifest.Tool
