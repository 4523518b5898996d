import CodeManifest.Proofs.Positions
import CodeManifest.Source.Extract
import CodeManifest.Source.Tree

namespace CodeManifest.Source

namespace Node

/-- Child number `j` is `c`, the first that has the label. -/
structure HasField (n : Node) (l : Label) (j : Nat) (c : Node) : Prop where
  child : n.children[j]? = some c
  label : c.label = some l
  first : ∀ k < j, ∀ b, n.children[k]? = some b → b.label ≠ some l

/-- What a statement declares, with its position in the statement. -/
inductive Declares (n : Node) : Position → Node → Prop
  | plain (h : n.kind ≠ .exportStatement) : Declares n [] n
  | exported {j : Nat} {d : Node} (h : n.kind = .exportStatement)
      (hd : n.HasField .declaration j d) : Declares n [j] d

/-- The function that a statement exports as a value, without declaring anything. -/
inductive ExportsValue (n : Node) : Position → Node → Prop
  | intro {j : Nat} {v : Node} (h : n.kind = .exportStatement) (hnone : n.child? .declaration = none)
      (hv : n.HasField .value j v) (hkind : v.kind.isFunctionValue = true) : ExportsValue n [j] v

/-- Does the statement export what it declares under a name? It does if it is an export statement, or if any
statement of the file exports the name. -/
def Exports (root n : Node) (name : Option Text) : Prop :=
  n.kind = .exportStatement ∨ ∃ t ∈ root.exports, name = some t

/-- The name of a declaration. -/
def declaredName (d : Node) : Option Text := (d.child? .name).map (·.text)

/-- The name of a variable. A pattern is none. -/
def boundName (e : Node) : Option Text :=
  (e.child? .name).bind fun n => if n.kind = .identifier then some n.text else none

/-- The symbol is one of the tree, of the function at the position. -/
inductive IsCandidate (root : Node) : SymbolKind → Position → Symbol → Prop
  | declaration {i : Nat} {n : Node} {q : Position} {f : Node} {b : Bool}
      (hn : root.children[i]? = some n) (hf : n.Declares q f)
      (hkind : f.kind.isFunctionDeclaration = true) (hb : b = true ↔ root.Exports n f.declaredName) :
      IsCandidate root .declaration (i :: q)
        (symbol .declaration f.declaredName f b (root.children.take i).reverse none)
  | value {i : Nat} {n : Node} {q : Position} {f : Node} {b : Bool}
      (hn : root.children[i]? = some n) (hf : n.ExportsValue q f)
      (hb : b = true ↔ root.Exports n f.declaredName) :
      IsCandidate root .declaration (i :: q)
        (symbol .declaration f.declaredName f b (root.children.take i).reverse none)
  | binding {i : Nat} {n : Node} {q : Position} {d : Node} {j : Nat} {e : Node} {k : Nat} {f : Node}
      {b : Bool} (hn : root.children[i]? = some n) (hd : n.Declares q d)
      (hvariable : d.kind.isVariableDeclaration = true) (he : d.children[j]? = some e)
      (hdeclarator : e.kind = .declarator) (hf : e.HasField .value k f)
      (hkind : f.kind.isFunctionValue = true) (hb : b = true ↔ root.Exports n e.boundName) :
      IsCandidate root .binding (i :: (q ++ [j, k]))
        (symbol .binding e.boundName f b (root.children.take i).reverse none)
  | method {i : Nat} {n : Node} {q : Position} {c : Node} {j : Nat} {body : Node} {k : Nat} {m : Node}
      {b : Bool} (hn : root.children[i]? = some n) (hc : n.Declares q c)
      (hclass : c.kind.isClassDeclaration = true) (hbody : c.HasField .body j body)
      (hm : body.children[k]? = some m) (hkind : m.kind = .method)
      (hprivate : m.isPrivate = false) (haccessor : m.isAccessor = false)
      (hb : b = true ↔ root.Exports n c.declaredName) :
      IsCandidate root .method (i :: (q ++ [j, k]))
        (symbol .method m.methodName m b (body.children.take k).reverse c.declaredName)

theorem child?_eq_some_iff {n c : Node} {l : Label} :
    n.child? l = some c ↔ ∃ j, n.HasField l j c := by
  unfold child?
  rw [List.find?_eq_some_iff_getElem]
  constructor
  · rintro ⟨hl, j, hj, rfl, hfirst⟩
    refine ⟨j, List.getElem?_eq_getElem hj, by simpa using hl, ?_⟩
    intro k hk b hb
    obtain ⟨hlt, rfl⟩ := List.getElem?_eq_some_iff.mp hb
    simpa using hfirst k hk
  · rintro ⟨j, hj, hl, hfirst⟩
    obtain ⟨hlt, rfl⟩ := List.getElem?_eq_some_iff.mp hj
    refine ⟨by simpa using hl, j, hlt, rfl, ?_⟩
    intro k hk
    simpa using hfirst k hk _ (List.getElem?_eq_getElem (hk.trans hlt))

theorem HasField.unique {n c c' : Node} {l : Label} {j j' : Nat} (h : n.HasField l j c)
    (h' : n.HasField l j' c') : j = j' ∧ c = c' := by
  have hj : j = j' := by
    rcases Nat.lt_trichotomy j j' with hlt | heq | hgt
    · exact absurd h.label (h'.first j hlt c h.child)
    · exact heq
    · exact absurd h'.label (h.first j' hgt c' h'.child)
  subst hj
  exact ⟨rfl, Option.some.inj (h.child.symm.trans h'.child)⟩

/-- What stands below the child under a label, seen from the node. -/
theorem lists_field {β : Type} {n c : Node} {l : Label} {P : Node → Position → β → Prop} {xs : List β}
    (hc : n.child? l = some c) (h : Lists (P c) xs) :
    Lists (fun p x => ∃ j c q, n.HasField l j c ∧ p = j :: q ∧ P c q x) xs := by
  obtain ⟨j, hj⟩ := child?_eq_some_iff.mp hc
  refine (h.below j).congr ?_
  intro p x
  constructor
  · rintro ⟨q, rfl, hq⟩
    exact ⟨j, c, q, hj, rfl, hq⟩
  · rintro ⟨j', c', q, hj', rfl, hq⟩
    obtain ⟨rfl, rfl⟩ := hj.unique hj'
    exact ⟨q, rfl, hq⟩

theorem lists_no_field {β : Type} {n : Node} {l : Label} {P : Node → Position → β → Prop}
    (hc : n.child? l = none) :
    Lists (fun p x => ∃ j c q, n.HasField l j c ∧ p = j :: q ∧ P c q x) [] := by
  apply Lists.nil
  rintro p x ⟨j, c, q, hj, -⟩
  rw [child?_eq_some_iff.mpr ⟨j, hj⟩] at hc
  cases hc

theorem getElem?_withBefore {before ns : List Node} {i : Nat} {b : List Node} {n : Node} :
    (withBefore before ns)[i]? = some (b, n) ↔ ns[i]? = some n ∧ b = (ns.take i).reverse ++ before := by
  induction ns generalizing before i with
  | nil => simp [withBefore]
  | cons m ns ih =>
    cases i with
    | zero => simp [withBefore, and_comm, eq_comm]
    | succ i => simp [withBefore, ih]

/-- What stands below each of some nodes, which may depend on the nodes before it. -/
theorem lists_withBefore {β : Type} {ns : List Node} {f : List Node → Node → List β}
    {P : List Node → Node → Position → β → Prop} (h : ∀ before n, Lists (P before n) (f before n)) :
    Lists (fun p x => ∃ i q n, p = i :: q ∧ ns[i]? = some n ∧ P (ns.take i).reverse n q x)
      ((withBefore [] ns).flatMap fun e => f e.1 e.2) := by
  refine (Lists.flatMap fun e _ => h e.1 e.2).congr ?_
  intro p x
  constructor
  · rintro ⟨i, q, ⟨before, n⟩, rfl, hi, hx⟩
    obtain ⟨hn, hbefore⟩ := getElem?_withBefore.mp hi
    rw [List.append_nil] at hbefore
    subst hbefore
    exact ⟨i, q, n, rfl, hn, hx⟩
  · rintro ⟨i, q, n, rfl, hn, hx⟩
    have hi : (withBefore [] ns)[i]? = some ((ns.take i).reverse, n) :=
      getElem?_withBefore.mpr ⟨hn, (List.append_nil _).symm⟩
    exact ⟨i, q, ((ns.take i).reverse, n), rfl, hi, hx⟩

/-- What a statement gives to look at: what it declares, or the function that it exports as a value. -/
def Shows (n : Node) (q : Position) (d : Node) : Prop := n.Declares q d ∨ n.ExportsValue q d

theorem HasField.child?_eq {n c : Node} {l : Label} {j : Nat} (h : n.HasField l j c) :
    n.child? l = some c := child?_eq_some_iff.mpr ⟨j, h⟩

theorem Shows.declares {n d : Node} {q : Position} (h : n.Shows q d)
    (hd : d.kind.isFunctionValue = false) : n.Declares q d := by
  rcases h with h | h
  · exact h
  · cases h with
    | intro _ _ _ hkind =>
      rw [hd] at hkind
      cases hkind

theorem isFunctionValue_of_isVariableDeclaration {k : Kind} (h : k.isVariableDeclaration = true) :
    k.isFunctionValue = false := by
  revert h
  cases k <;> decide

theorem isFunctionValue_of_isClassDeclaration {k : Kind} (h : k.isClassDeclaration = true) :
    k.isFunctionValue = false := by
  revert h
  cases k <;> decide

theorem isVariableDeclaration_of_isClassDeclaration {k : Kind} (h : k.isClassDeclaration = true) :
    k.isVariableDeclaration = false := by
  revert h
  cases k <;> decide

theorem shows_plain {n : Node} (hn : n.kind ≠ .exportStatement) {q : Position} {d : Node} :
    n.Shows q d ↔ q = [] ∧ d = n := by
  constructor
  · rintro (h | h)
    · cases h with
      | plain => exact ⟨rfl, rfl⟩
      | exported h => exact absurd h hn
    · cases h with
      | intro h => exact absurd h hn
  · rintro ⟨rfl, rfl⟩
    exact Or.inl (.plain hn)

/-- An export statement shows one child at most, the first under some label. -/
theorem shows_export {n d : Node} (hn : n.kind = .exportStatement)
    (hd : n.exportedDeclaration? = some d) :
    ∃ l, n.child? l = some d ∧ ∀ q c, n.Shows q c ↔ ∃ j, q = [j] ∧ n.HasField l j c := by
  unfold exportedDeclaration? at hd
  cases hdecl : n.child? .declaration with
  | some d' =>
    rw [hdecl] at hd
    cases hd
    refine ⟨.declaration, hdecl, ?_⟩
    intro q c
    constructor
    · rintro (h | h)
      · cases h with
        | plain h => exact absurd hn h
        | @exported j _ _ hj => exact ⟨j, rfl, hj⟩
      · cases h with
        | intro _ hnone =>
          rw [hdecl] at hnone
          cases hnone
    · rintro ⟨j, rfl, hj⟩
      exact Or.inl (.exported hn hj)
  | none =>
    rw [hdecl] at hd
    obtain ⟨hvalue, hkind⟩ := Option.filter_eq_some_iff.mp hd
    refine ⟨.value, hvalue, ?_⟩
    intro q c
    constructor
    · rintro (h | h)
      · cases h with
        | plain h => exact absurd hn h
        | exported _ hj =>
          rw [hj.child?_eq] at hdecl
          cases hdecl
      · cases h with
        | @intro j _ _ _ hj => exact ⟨j, rfl, hj⟩
    · rintro ⟨j, rfl, hj⟩
      obtain rfl : d = c := Option.some.inj (hvalue.symm.trans hj.child?_eq)
      exact Or.inr (.intro hn hdecl hj hkind)

theorem not_shows {n : Node} (hn : n.kind = .exportStatement) (hd : n.exportedDeclaration? = none)
    (q : Position) (d : Node) : ¬ n.Shows q d := by
  unfold exportedDeclaration? at hd
  rintro (h | h)
  · cases h with
    | plain h => exact h hn
    | exported _ hj =>
      rw [hj.child?_eq] at hd
      cases hd
  · cases h with
    | intro _ hnone hj hkind =>
      rw [hnone, hj.child?_eq] at hd
      simp [hkind] at hd

/-- The declaration at the top that one statement makes. -/
def shown? (before : List Node) (n : Node) : Option TopLevel :=
  if n.kind = .exportStatement then (exportedDeclaration? n).map (⟨·, before, true⟩)
  else some ⟨n, before, false⟩

variable {g : TopLevel → List Symbol} {P : TopLevel → Position → Symbol → Prop}

theorem lists_shown (hg : ∀ t, Lists (P t) (g t)) (before : List Node) (n : Node) :
    Lists (fun p x => ∃ q d r, n.Shows q d ∧ p = q ++ r ∧ P ⟨d, before, n.kind = .exportStatement⟩ r x)
      ((shown? before n).toList.flatMap g) := by
  unfold shown?
  by_cases hn : n.kind = .exportStatement
  · rw [if_pos hn, decide_eq_true hn]
    cases hd : n.exportedDeclaration? with
    | none =>
      apply Lists.nil
      rintro p x ⟨q, d, r, hq, -⟩
      exact not_shows hn hd q d hq
    | some d =>
      obtain ⟨l, hl, hshows⟩ := shows_export hn hd
      have hfield := lists_field (P := fun d => P ⟨d, before, true⟩) hl (hg _)
      rw [Option.map_some, Option.toList_some, List.flatMap_singleton]
      refine hfield.congr ?_
      intro p x
      constructor
      · rintro ⟨j, c, r, hj, rfl, hr⟩
        exact ⟨[j], c, r, (hshows _ _).mpr ⟨j, rfl, hj⟩, rfl, hr⟩
      · rintro ⟨q, c, r, hq, rfl, hr⟩
        obtain ⟨j, rfl, hj⟩ := (hshows _ _).mp hq
        exact ⟨j, c, r, hj, rfl, hr⟩
  · rw [if_neg hn, decide_eq_false hn, Option.toList_some, List.flatMap_singleton]
    refine (hg _).congr ?_
    intro p x
    constructor
    · intro hp
      exact ⟨[], n, p, (shows_plain hn).mpr ⟨rfl, rfl⟩, rfl, hp⟩
    · rintro ⟨q, d, r, hq, rfl, hr⟩
      obtain ⟨rfl, rfl⟩ := (shows_plain hn).mp hq
      exact hr

/-- The symbol comes of what a statement of the file shows, as `P` says for that alone. -/
def AtTop (root : Node) (P : TopLevel → Position → Symbol → Prop) (p : Position) (x : Symbol) : Prop :=
  ∃ i n q d r, root.children[i]? = some n ∧ n.Shows q d ∧ p = i :: (q ++ r) ∧
    P ⟨d, (root.children.take i).reverse, n.kind = .exportStatement⟩ r x

theorem lists_topLevel (hg : ∀ t, Lists (P t) (g t)) (root : Node) :
    Lists (root.AtTop P) (root.topLevel.flatMap g) := by
  have htop : root.topLevel.flatMap g =
      (withBefore [] root.children).flatMap fun e => (shown? e.1 e.2).toList.flatMap g := by
    unfold topLevel
    rw [List.filterMap_eq_flatMap_toList, List.flatMap_assoc]
    rfl
  rw [htop]
  refine (lists_withBefore (lists_shown hg)).congr ?_
  intro p x
  constructor
  · rintro ⟨i, p, n, rfl, hn, q, d, r, hq, rfl, hr⟩
    exact ⟨i, n, q, d, r, hn, hq, rfl, hr⟩
  · rintro ⟨i, n, q, d, r, hn, hq, rfl, hr⟩
    exact ⟨i, q ++ r, n, rfl, hn, q, d, r, hq, rfl, hr⟩

theorem isExported_eq_true_iff {root n d : Node} {before : List Node} {name : Option Text} :
    isExported root.exports ⟨d, before, n.kind = .exportStatement⟩ name = true ↔
      root.Exports n name := by
  unfold isExported Exports
  cases name with
  | none => simp
  | some t => simp

theorem eq_isExported {root n d : Node} {before : List Node} {name : Option Text} {b : Bool}
    (hb : b = true ↔ root.Exports n name) :
    b = isExported root.exports ⟨d, before, n.kind = .exportStatement⟩ name :=
  Bool.eq_iff_iff.mpr (hb.trans isExported_eq_true_iff.symm)

/-- No export statement has a bare function value as its declaration. -/
def DeclaresNoValue (root : Node) : Prop :=
  ∀ n ∈ root.children, n.kind = .exportStatement → ∀ d ∈ n.child? .declaration,
    d.kind.isFunctionValue = false

theorem DeclaresNoValue.isFunctionValue_eq_false {root n d : Node} {i : Nat} {q : Position}
    (h : root.DeclaresNoValue) (hn : root.children[i]? = some n) (hexport : n.kind = .exportStatement)
    (hd : n.Declares q d) : d.kind.isFunctionValue = false := by
  cases hd with
  | plain h => exact absurd hexport h
  | exported _ hj => exact h n (List.mem_of_getElem? hn) hexport d hj.child?_eq

/-- A declaration at the top makes the symbol of a function, if it is one. -/
def IsFunction (root : Node) (t : TopLevel) (r : Position) (x : Symbol) : Prop :=
  (t.declaration.kind.isFunctionDeclaration || (t.isExport && t.declaration.kind.isFunctionValue)) =
      true ∧ r = [] ∧
    x = symbol .declaration t.declaration.declaredName t.declaration
      (isExported root.exports t t.declaration.declaredName) t.before none

theorem lists_functions (root : Node) : Lists (root.AtTop root.IsFunction) root.declarations := by
  unfold declarations
  rw [List.filterMap_eq_flatMap_toList]
  apply lists_topLevel
  intro t
  exact Lists.guard _ _

theorem declarations_exact {root : Node} (h : root.DeclaresNoValue) :
    Lists (IsCandidate root .declaration) root.declarations := by
  refine (lists_functions root).congr ?_
  intro p x
  constructor
  · rintro ⟨i, n, q, d, r, hn, hq, rfl, hkind, rfl, rfl⟩
    rw [List.append_nil]
    rcases hq with hq | hq
    -- A function value counts wherever it stands in an export statement; that it is not declared there is known
    -- from the grammar only.
    · have hfunction : d.kind.isFunctionDeclaration = true := by
        rcases Bool.or_eq_true_iff.mp hkind with hkind | hkind
        · exact hkind
        · obtain ⟨hexport, hvalue⟩ := Bool.and_eq_true_iff.mp hkind
          rw [h.isFunctionValue_eq_false hn (of_decide_eq_true hexport) hq] at hvalue
          cases hvalue
      exact .declaration hn hq hfunction isExported_eq_true_iff
    · exact .value hn hq isExported_eq_true_iff
  · intro hx
    cases hx with
    | @declaration i n q f b hn hf hkind hb =>
      refine ⟨i, n, q, f, [], hn, Or.inl hf, by rw [List.append_nil], ?_, rfl, ?_⟩
      · simp [hkind]
      · rw [eq_isExported hb]
    | @value i n q f b hn hf hb =>
      refine ⟨i, n, q, f, [], hn, Or.inr hf, by rw [List.append_nil], ?_, rfl, ?_⟩
      · cases hf with
        | intro hexport _ _ hkind => simp [hexport, hkind]
      · rw [eq_isExported hb]

theorem boundFunction?_of_some {e f : Node} (h : e.child? .value = some f) :
    boundFunction? e = if f.kind.isFunctionValue then some (e.boundName, f) else none := by
  unfold boundFunction?
  rw [h]
  rfl

theorem boundFunction?_of_none {e : Node} (h : e.child? .value = none) : boundFunction? e = none := by
  unfold boundFunction?
  rw [h]

/-- The symbol is that of the function to which a declarator binds its variable. -/
def Binds (g : Option Text → Node → Symbol) (e : Node) (r : Position) (x : Symbol) : Prop :=
  ∃ k f q, e.HasField .value k f ∧ r = k :: q ∧
    (f.kind.isFunctionValue = true ∧ q = [] ∧ x = g e.boundName f)

theorem lists_binds (g : Option Text → Node → Symbol) (e : Node) :
    Lists (Binds g e) ((boundFunction? e).map fun b => g b.1 b.2).toList := by
  unfold Binds
  cases h : e.child? .value with
  | none =>
    rw [boundFunction?_of_none h]
    exact lists_no_field h
  | some f =>
    rw [boundFunction?_of_some h, apply_ite (Option.map _)]
    exact lists_field h (Lists.guard _ _)

def boundSymbol (root : Node) (t : TopLevel) (name : Option Text) (f : Node) : Symbol :=
  symbol .binding name f (isExported root.exports t name) t.before none

/-- A declaration at the top makes the symbols of the variables in it. -/
def IsBound (root : Node) (t : TopLevel) (r : Position) (x : Symbol) : Prop :=
  t.declaration.kind.isVariableDeclaration = true ∧ ∃ j p e, r = j :: p ∧
    t.declaration.children[j]? = some e ∧ (e.kind = .declarator ∧ Binds (boundSymbol root t) e p x)

theorem lists_bound (root : Node) : Lists (root.AtTop root.IsBound) root.bindings := by
  unfold bindings
  apply lists_topLevel
  intro t
  have hdeclarator (e : Node) : Lists (fun r x => e.kind = .declarator ∧ Binds (boundSymbol root t) e r x)
      (if e.kind = .declarator then (boundFunction? e).map fun b => boundSymbol root t b.1 b.2
        else none).toList := by
    rw [apply_ite Option.toList]
    exact (lists_binds (boundSymbol root t) e).ite
  have hall := Lists.flatMap fun e (_ : e ∈ t.declaration.children) => hdeclarator e
  rw [← List.filterMap_eq_flatMap_toList] at hall
  unfold childrenOf
  rw [List.map_filterMap, List.filterMap_filter]
  simp only [decide_eq_true_eq]
  exact hall.ite

theorem bindings_exact (root : Node) : Lists (IsCandidate root .binding) root.bindings := by
  refine (lists_bound root).congr ?_
  intro p x
  constructor
  · rintro ⟨i, n, q, d, r, hn, hq, rfl, hkind, j, p, e, rfl, he, hdeclarator, k, f, _, hf, rfl,
      hvalue, rfl, rfl⟩
    have hd := hq.declares (isFunctionValue_of_isVariableDeclaration hkind)
    exact .binding hn hd hkind he hdeclarator hf hvalue isExported_eq_true_iff
  · intro hx
    cases hx with
    | @binding i n q d j e k f b hn hd hvariable he hdeclarator hf hkind hb =>
      refine ⟨i, n, q, d, [j, k], hn, Or.inl hd, rfl, hvariable, j, [k], e, rfl, he, hdeclarator,
        k, f, [], hf, rfl, hkind, rfl, ?_⟩
      rw [boundSymbol, eq_isExported hb]

def methodSymbol (root : Node) (t : TopLevel) (before : List Node) (m : Node) : Symbol :=
  symbol .method m.methodName m (isExported root.exports t t.declaration.declaredName) before
    t.declaration.declaredName

/-- The symbol is that of a method in the body of a class. -/
def Holds (g : List Node → Node → Symbol) (body : Node) (r : Position) (x : Symbol) : Prop :=
  ∃ k q m, r = k :: q ∧ body.children[k]? = some m ∧
    (m.isPublicMethod = true ∧ q = [] ∧ x = g (body.children.take k).reverse m)

theorem lists_holds (g : List Node → Node → Symbol) (body : Node) :
    Lists (Holds g body) (((withBefore [] body.children).filter fun e => isPublicMethod e.2).map
      fun e => g e.1 e.2) := by
  rw [← List.filterMap_eq_map, List.filterMap_filter, List.filterMap_eq_flatMap_toList]
  exact lists_withBefore fun before m => Lists.guard (m.isPublicMethod = true) (g before m)

/-- A declaration at the top makes the symbols of the methods in it. -/
def IsMethod (root : Node) (t : TopLevel) (r : Position) (x : Symbol) : Prop :=
  t.declaration.kind.isClassDeclaration = true ∧ ∃ j body p, t.declaration.HasField .body j body ∧
    r = j :: p ∧ Holds (methodSymbol root t) body p x

theorem lists_methods (root : Node) : Lists (root.AtTop root.IsMethod) root.methods := by
  unfold methods
  apply lists_topLevel
  intro t
  apply Lists.ite
  cases hbody : t.declaration.child? .body with
  | none => exact lists_no_field hbody
  | some body => exact lists_field hbody (lists_holds (methodSymbol root t) body)

theorem methods_exact (root : Node) : Lists (IsCandidate root .method) root.methods := by
  refine (lists_methods root).congr ?_
  intro p x
  constructor
  · rintro ⟨i, n, q, c, r, hn, hq, rfl, hclass, j, body, p, hbody, rfl, k, _, m, rfl, hm, hpublic,
      rfl, rfl⟩
    have hc := hq.declares (isFunctionValue_of_isClassDeclaration hclass)
    obtain ⟨⟨hkind, hprivate⟩, haccessor⟩ :
        (m.kind = .method ∧ m.isPrivate = false) ∧ m.isAccessor = false := by
      simpa [isPublicMethod] using hpublic
    exact .method hn hc hclass hbody hm hkind hprivate haccessor isExported_eq_true_iff
  · intro hx
    cases hx with
    | @method i n q c j body k m b hn hc hclass hbody hm hkind hprivate haccessor hb =>
      refine ⟨i, n, q, c, [j, k], hn, Or.inl hc, rfl, hclass, j, body, [k], hbody, rfl, k, [], m, rfl,
        hm, ?_, rfl, ?_⟩
      · simp [isPublicMethod, hkind, hprivate, haccessor]
      · rw [methodSymbol, eq_isExported hb]

theorem Declares.length_le {n d : Node} {q : Position} (h : n.Declares q d) : q.length ≤ 1 := by
  cases h with
  | plain => exact Nat.zero_le 1
  | exported => exact Nat.le_refl 1

theorem Declares.unique {n d d' : Node} {q : Position} (h : n.Declares q d) (h' : n.Declares q d') :
    d = d' := by
  cases h with
  | plain => cases h' with
    | plain => rfl
  | exported _ hj => cases h' with
    | exported _ hj' => exact Option.some.inj (hj.child.symm.trans hj'.child)

namespace IsCandidate

variable {root : Node} {k k' : SymbolKind} {p : Position} {x x' : Symbol}

theorem length_le (h : IsCandidate root .declaration p x) : p.length ≤ 2 := by
  cases h with
  | declaration _ hf => exact Nat.succ_le_succ hf.length_le
  | value _ hf => cases hf with
    | intro => exact Nat.le_refl 2

/-- A variable or a method stands two steps below what declares it, and that tells which of both it is. -/
theorem exists_declares (h : IsCandidate root k p x) (hk : k ≠ .declaration) :
    ∃ i n q d l, root.children[i]? = some n ∧ n.Declares q d ∧ p = i :: (q ++ l) ∧ l.length = 2 ∧
      k = if d.kind.isVariableDeclaration then .binding else .method := by
  cases h with
  | declaration => exact absurd rfl hk
  | value => exact absurd rfl hk
  | @binding i n q d j _ k _ _ hn hd hvariable =>
    exact ⟨i, n, q, d, [j, k], hn, hd, rfl, rfl, by rw [if_pos hvariable]⟩
  | @method i n q c j _ k _ _ hn hc hclass =>
    have hvariable := isVariableDeclaration_of_isClassDeclaration hclass
    exact ⟨i, n, q, c, [j, k], hn, hc, rfl, rfl, by rw [hvariable]; rfl⟩

theorem length_gt (h : IsCandidate root k p x) (hk : k ≠ .declaration) : 2 < p.length := by
  obtain ⟨i, n, q, d, l, -, -, rfl, hl, -⟩ := h.exists_declares hk
  simp only [List.length_cons, List.length_append, hl]
  omega

/-- No function makes symbols of two kinds. -/
theorem kind_unique (h : IsCandidate root k p x) (h' : IsCandidate root k' p x') : k = k' := by
  by_cases hk : k = .declaration
  · subst hk
    by_contra hk'
    exact absurd h.length_le (not_le_of_gt (h'.length_gt (Ne.symm hk')))
  · by_cases hk' : k' = .declaration
    · subst hk'
      exact absurd h'.length_le (not_le_of_gt (h.length_gt hk))
    · obtain ⟨i, n, q, d, l, hn, hd, rfl, hl, rfl⟩ := h.exists_declares hk
      obtain ⟨i', n', q', d', l', hn', hd', hpos, hl', rfl⟩ := h'.exists_declares hk'
      -- Both stand equally deep below what declares them, so one position has one declaration.
      obtain ⟨rfl, hql⟩ := List.cons.inj hpos
      obtain ⟨rfl, -⟩ := List.append_inj' hql (hl.trans hl'.symm)
      obtain rfl : n = n' := Option.some.inj (hn.symm.trans hn')
      obtain rfl : d = d' := hd.unique hd'
      rfl

end IsCandidate

/-- The statement exports the name, and does not take it from another file: as the value that it exports by
default, or in its list of names. -/
def NamesExport (n : Node) (t : Text) : Prop :=
  n.kind = .exportStatement ∧ n.child? .source = none ∧
    ((∃ v, n.child? .value = some v ∧ v.kind = .identifier ∧ v.text = t) ∨
      ∃ c s d, n.childOf? .exportClause = some c ∧ s ∈ c.children ∧ s.kind = .exportSpecifier ∧
        s.child? .name = some d ∧ d.text = t)

theorem mem_exportedNames {n : Node} {t : Text} : t ∈ n.exportedNames ↔ n.NamesExport t := by
  unfold NamesExport
  unfold exportedNames
  by_cases hn : n.kind ≠ .exportStatement || (n.child? .source).isSome
  · rw [if_pos hn]
    refine iff_of_false List.not_mem_nil ?_
    rintro ⟨hexport, hsource, -⟩
    simp [hexport, hsource] at hn
  · rw [if_neg hn]
    obtain ⟨hexport, hsource⟩ : n.kind = .exportStatement ∧ n.child? .source = none := by
      simpa using hn
    rw [and_iff_right hexport, and_iff_right hsource, List.mem_append]
    apply or_congr
    · cases n.child? .value with
      | none => simp
      | some v => by_cases hv : v.kind = .identifier <;> simp [hv, @eq_comm _ t]
    · cases n.childOf? .exportClause with
      | none => simp
      | some c => simp [childrenOf, and_assoc]

theorem mem_exports {root : Node} {t : Text} :
    t ∈ root.exports ↔ ∃ n ∈ root.children, n.NamesExport t := by
  simp only [exports, List.mem_flatMap, mem_exportedNames]

/-- A file has exactly the symbols that its tree shows, in each of the three groups in the order of the text,
and makes no two of one function. What is exported by name is decided for the whole file. -/
theorem candidates_exact {root : Node} (h : root.DeclaresNoValue) :
    Lists (IsCandidate root .declaration) root.symbols.declarations ∧
    Lists (IsCandidate root .binding) root.symbols.bindings ∧
    Lists (IsCandidate root .method) root.symbols.methods ∧
    (∀ k k' p x x', IsCandidate root k p x → IsCandidate root k' p x' → k = k' ∧ x = x') ∧
    ∀ t, t ∈ root.exports ↔ ∃ n ∈ root.children, n.NamesExport t := by
  have hdeclarations : Lists (IsCandidate root .declaration) root.declarations := declarations_exact h
  have hbindings : Lists (IsCandidate root .binding) root.bindings := bindings_exact root
  have hmethods : Lists (IsCandidate root .method) root.methods := methods_exact root
  refine ⟨hdeclarations, hbindings, hmethods, ?_, fun t => mem_exports⟩
  intro k k' p x x' hx hx'
  obtain rfl : k = k' := hx.kind_unique hx'
  refine ⟨rfl, ?_⟩
  cases k with
  | declaration => exact hdeclarations.unique hx hx'
  | binding => exact hbindings.unique hx hx'
  | method => exact hmethods.unique hx hx'

/-- A file that exports a function without a name, and a class before it declares it. -/
def defaultText : Text :=
  "export default () => 1;\nexport \x7b A \x7d;\nconst f = () => 2, g = 3;\nclass A \x7b\n  m() \x7b\x7d\n  private n() \x7b\x7d\n\x7d\n"

theorem candidates_exact_default :
    let root := ofText .typescript defaultText
    root.DeclaresNoValue ∧
    root.symbols.candidates.map (fun x => (x.kind, x.name, x.isExported)) =
      [(.declaration, none, true), (.binding, some ['f'], false), (.method, some ['m'], true)] ∧
    Lists (IsCandidate root .declaration) root.symbols.declarations ∧
    Lists (IsCandidate root .binding) root.symbols.bindings ∧
    Lists (IsCandidate root .method) root.symbols.methods := by
  intro root
  have h : root.DeclaresNoValue := by
    unfold DeclaresNoValue
    decide +kernel
  obtain ⟨hdeclarations, hbindings, hmethods, -⟩ := candidates_exact h
  exact ⟨h, by decide +kernel, hdeclarations, hbindings, hmethods⟩

end Node

end CodeManifest.Source
