import CodeManifest.Schema.Scan
import Mathlib.Data.List.Basic

namespace CodeManifest.Schema

open CodeManifest.Sql

variable {parse : Grammar} {t : Text}

/-- In the dialect `d` the text reads as the statements `sts`, with blank ones left out, and every
definition of a table or an index is taken apart. -/
def Understood (parse : Grammar) (t : Text) (d : Dialect) (sts : List Statement) : Prop :=
  ∃ found, parse d t = some found ∧ found.filterMap id = sts ∧
    ∀ c, Statement.command c ∈ sts → c.isSchema = false

/-- The text is not understood in the dialect `d`. -/
def Rejected (parse : Grammar) (t : Text) (d : Dialect) : Prop :=
  ∀ sts, ¬ Understood parse t d sts

theorem findSome?_keptDefinition?_eq_none {sts : List Statement} :
    sts.findSome? keptDefinition? = none ↔
      ∀ c, Statement.command c ∈ sts → c.isSchema = false := by
  rw [List.findSome?_eq_none_iff]
  constructor
  · intro h c hc
    simpa [keptDefinition?] using h _ hc
  · intro h st hst
    cases st with
    | command c => simp [keptDefinition?, h c hst]
    | table c => rfl
    | index i => rfl
    | other => rfl

/-- A dialect that takes a text gives its own name to it. -/
theorem accept_eq_ok {d : Dialect} {p : Parsed} :
    accept parse d t = .ok p ↔ p.dialect = d ∧ Understood parse t d p.statements := by
  unfold accept
  cases hparse : parse d t with
  | none =>
    constructor
    · intro h
      cases h
    · rintro ⟨-, found, hfound, -⟩
      rw [hparse] at hfound
      cases hfound
  | some found =>
    dsimp only
    cases hkept : (found.filterMap id).findSome? keptDefinition? with
    | some c =>
      constructor
      · intro h
        cases h
      · rintro ⟨-, found', hfound, hsts, hclean⟩
        obtain rfl : found = found' := Option.some.inj (hparse.symm.trans hfound)
        rw [← hsts, ← findSome?_keptDefinition?_eq_none, hkept] at hclean
        cases hclean
    | none =>
      constructor
      · intro h
        cases h
        exact ⟨rfl, found, hparse, rfl, findSome?_keptDefinition?_eq_none.mp hkept⟩
      · rintro ⟨hd, found', hfound, hsts, -⟩
        obtain rfl : found = found' := Option.some.inj (hparse.symm.trans hfound)
        rw [hsts, ← hd]

theorem accept_eq_error {d : Dialect} :
    (∃ r, accept parse d t = .error r) ↔ Rejected parse t d := by
  constructor
  · rintro ⟨r, hr⟩ sts hsts
    have hok : accept parse d t = .ok ⟨d, sts⟩ := accept_eq_ok.mpr ⟨rfl, hsts⟩
    rw [hr] at hok
    cases hok
  · intro h
    cases ha : accept parse d t with
    | error r => exact ⟨r, rfl⟩
    | ok p => exact absurd (accept_eq_ok.mp ha).2 (h p.statements)

/-- What stands before the first place of a dialect in a list is fixed by the list. -/
theorem left_eq_of_append_cons {d : Dialect} {as as' bs bs' : List Dialect}
    (h : as ++ d :: bs = as' ++ d :: bs') (has : d ∉ as) (has' : d ∉ as') : as = as' := by
  have hcut {cs : List Dialect} (hcs : d ∉ cs) (rest : List Dialect) :
      (cs ++ d :: rest).takeWhile (· ≠ d) = cs := by
    have hall : ∀ e ∈ cs, decide (e ≠ d) = true := by
      intro e he
      exact decide_eq_true fun hed => hcs (hed ▸ he)
    rw [List.takeWhile_append_of_pos hall]
    simp
  rw [← hcut has bs, h, hcut has' bs']

theorem firstAccepting_cons_of_rejected {d : Dialect} (h : Rejected parse t d) (ds : List Dialect) :
    (firstAccepting parse t (d :: ds)).2 = (firstAccepting parse t ds).2 := by
  obtain ⟨r, hr⟩ := accept_eq_error.mpr h
  rw [firstAccepting, hr]

theorem firstAccepting_append_of_rejected {before : List Dialect}
    (h : ∀ d ∈ before, Rejected parse t d) (ds : List Dialect) :
    (firstAccepting parse t (before ++ ds)).2 = (firstAccepting parse t ds).2 := by
  induction before with
  | nil => rfl
  | cons d before ih =>
    have hd := h d List.mem_cons_self
    rw [List.cons_append, firstAccepting_cons_of_rejected hd]
    exact ih fun e he => h e (List.mem_cons_of_mem _ he)

theorem firstAccepting_cons_of_understood {p : Parsed}
    (h : Understood parse t p.dialect p.statements) (ds : List Dialect) :
    (firstAccepting parse t (p.dialect :: ds)).2 = some p := by
  have hp : accept parse p.dialect t = .ok p := accept_eq_ok.mpr ⟨rfl, h⟩
  rw [firstAccepting, hp]

/-- The dialects before the one that takes the text are all tried in vain. -/
theorem split_of_firstAccepting {ds : List Dialect} {p : Parsed}
    (h : (firstAccepting parse t ds).2 = some p) :
    ∃ before after, ds = before ++ p.dialect :: after ∧ (∀ d ∈ before, Rejected parse t d) ∧
      Understood parse t p.dialect p.statements := by
  induction ds with
  | nil => cases h
  | cons d ds ih =>
    cases ha : accept parse d t with
    | ok q =>
      rw [firstAccepting, ha] at h
      cases h
      obtain ⟨rfl, hq⟩ := accept_eq_ok.mp ha
      exact ⟨[], ds, rfl, fun e he => absurd he List.not_mem_nil, hq⟩
    | error r =>
      have hd : Rejected parse t d := accept_eq_error.mp ⟨r, ha⟩
      rw [firstAccepting_cons_of_rejected hd] at h
      obtain ⟨before, after, rfl, hbefore, hp⟩ := ih h
      exact ⟨d :: before, after, rfl, List.forall_mem_cons.mpr ⟨hd, hbefore⟩, hp⟩

theorem firstAccepting_eq_none {ds : List Dialect} :
    (firstAccepting parse t ds).2 = none ↔ ∀ d ∈ ds, Rejected parse t d := by
  constructor
  · intro h d hd sts hsts
    induction ds with
    | nil => exact absurd hd List.not_mem_nil
    | cons e ds ih =>
      cases ha : accept parse e t with
      | ok q =>
        rw [firstAccepting, ha] at h
        cases h
      | error r =>
        have he : Rejected parse t e := accept_eq_error.mp ⟨r, ha⟩
        rw [firstAccepting_cons_of_rejected he] at h
        rcases List.mem_cons.mp hd with rfl | hd
        · exact he sts hsts
        · exact ih h hd
  · intro h
    have hskip := firstAccepting_append_of_rejected h []
    rwa [List.append_nil] at hskip

theorem dialectsOf_map_name {ds : List Dialect} (h : ds ≠ []) :
    dialectsOf (ds.map Dialect.name) = .ok ds := by
  have hempty : ¬(ds.map Dialect.name).isEmpty = true := by simpa using h
  rw [dialectsOf, if_neg hempty]
  clear h hempty
  induction ds with
  | nil => rfl
  | cons d ds ih =>
    rw [List.map_cons, List.mapM_cons, Dialect.ofName?_name, ih]
    rfl

theorem parseWithFallback_eq_ok {ds : List Dialect} {file : Text} {p : Parsed} :
    parseWithFallback parse ds t file = .ok p ↔ (firstAccepting parse t ds).2 = some p := by
  unfold parseWithFallback
  cases (firstAccepting parse t ds).2 with
  | some q => simp
  | none => simp

theorem parseWithFallback_eq_error {ds : List Dialect} {file : Text} {f : Fault} :
    parseWithFallback parse ds t file = .error f ↔
      (firstAccepting parse t ds).2 = none ∧ f = noDialect ds file := by
  unfold parseWithFallback
  cases (firstAccepting parse t ds).2 with
  | some q => simp
  | none => simp [eq_comm]

/-- What follows the dialect that takes the text does not matter, nor which of the dialects before it are
tried. -/
theorem parseWithFallback_of_rejected {before : List Dialect} {file : Text} {p : Parsed}
    (hbefore : ∀ d ∈ before, Rejected parse t d) (hp : Understood parse t p.dialect p.statements)
    (after : List Dialect) :
    parseWithFallback parse (before ++ p.dialect :: after) t file = .ok p := by
  rw [parseWithFallback_eq_ok, firstAccepting_append_of_rejected hbefore]
  exact firstAccepting_cons_of_understood hp after

/-- Every text that is not blank is read in this way, and its tables are taken from what is read. -/
theorem outcome_scanText (s : Scanner) (file t : Text) (modified : Instant)
    (h : (Text.trim t).isEmpty = false) :
    (s.scanText file t modified).outcome =
      match parseWithFallback Statement.parse s.dialects t file with
      | .error f => .error (.fault f)
      | .ok p =>
        match tables p.dialect p.statements with
        | .error u => .error (.untitled u)
        | .ok ts => .ok (ts.map fun t => ⟨t, file, p.dialect.name, some modified⟩) := by
  unfold Scanner.scanText parseWithFallback
  rw [h]
  dsimp only
  cases (firstAccepting Statement.parse t s.dialects).2 with
  | none => rfl
  | some p =>
    dsimp only
    cases tables p.dialect p.statements with
    | error u => rfl
    | ok ts => rfl

/-- A text goes to the first dialect in which it is understood, and to none exactly if it is understood
in none. So no definition is lost in it, and the dialects before that one may be left out and those behind
it be any others. -/
theorem parseWithFallback_finds_first (parse : Grammar) {ds : List Dialect} (hds : ds ≠ [])
    (t file : Text) :
    dialectsOf (ds.map Dialect.name) = .ok ds ∧
    (∀ p, parseWithFallback parse ds t file = .ok p ↔
      ∃ before after, ds = before ++ p.dialect :: after ∧ (∀ d ∈ before, Rejected parse t d) ∧
        Understood parse t p.dialect p.statements) ∧
    (∀ f, parseWithFallback parse ds t file = .error f ↔
      (∀ d ∈ ds, Rejected parse t d) ∧
        f = .inFile .schema ("no dialect matched (tried ".toList ++
          Text.join ", " (ds.map Dialect.name) ++ [')']) file) ∧
    (∀ p, parseWithFallback parse ds t file = .ok p →
      ∀ c, Statement.command c ∈ p.statements → c.isSchema = false) ∧
    ∀ p before after, ds = before ++ p.dialect :: after → p.dialect ∉ before →
      parseWithFallback parse ds t file = .ok p →
      ∀ before' ⊆ before, ∀ after',
        parseWithFallback parse (before' ++ p.dialect :: after') t file = .ok p := by
  have hsplit {p : Parsed} (h : parseWithFallback parse ds t file = .ok p) :
      ∃ before after, ds = before ++ p.dialect :: after ∧ (∀ d ∈ before, Rejected parse t d) ∧
        Understood parse t p.dialect p.statements :=
    split_of_firstAccepting (parseWithFallback_eq_ok.mp h)
  refine ⟨dialectsOf_map_name hds, ?_, ?_, ?_, ?_⟩
  · intro p
    constructor
    · exact hsplit
    · rintro ⟨before, after, rfl, hbefore, hp⟩
      exact parseWithFallback_of_rejected hbefore hp after
  · intro f
    rw [parseWithFallback_eq_error, firstAccepting_eq_none]
    rfl
  · intro p h c hc
    obtain ⟨-, -, -, -, found, -, -, hclean⟩ := hsplit h
    exact hclean c hc
  · intro p before after hds hnot h before' hsub after'
    obtain ⟨front, back, hfront, hrejected, hp⟩ := hsplit h
    have hfirst : p.dialect ∉ front := fun hmem => hrejected _ hmem _ hp
    have hsame : before = front := left_eq_of_append_cons (hds.symm.trans hfront) hnot hfirst
    subst hsame
    exact parseWithFallback_of_rejected (fun d hd => hrejected d (hsub hd)) hp after'

/-- Square brackets quote a name in two of the dialects, and the one asked for first reads the text. -/
theorem parseWithFallback_brackets :
    let t : Text := "create table [t] (a int);"
    let create : CreateTable := { name := "t", elements := [.column ⟨"a", some (.base "INT" []), []⟩] }
    let parse : Grammar := fun d _ =>
      if d = .sqlite ∨ d = .mssql then some [some (.table create)] else none
    parseWithFallback parse [.mysql, .sqlite, .mssql] t "a.sql" = .ok ⟨.sqlite, [.table create]⟩ := by
  intro t create parse
  have hne : [Dialect.mysql, .sqlite, .mssql] ≠ [] := List.cons_ne_nil _ _
  obtain ⟨-, hok, -⟩ := parseWithFallback_finds_first parse hne t "a.sql"
  refine (hok ⟨.sqlite, [.table create]⟩).mpr ⟨[.mysql], [.mssql], rfl, ?_, _, rfl, rfl, ?_⟩
  · intro d hd sts ⟨found, hfound, _⟩
    obtain rfl : d = .mysql := List.mem_singleton.mp hd
    cases hfound
  · intro c hc
    cases List.mem_singleton.mp hc

end CodeManifest.Schema
