import CodeManifest.Proofs.Source.Candidates

namespace CodeManifest.Source

namespace Node

variable {root : Node}

/-- The class at the position is exported as what it declares: by a keyword in front of it, or by its name in
another statement of the file. -/
inductive ExportsClass (root : Node) : Position → Node → Prop
  | keyword {i : Nat} {n : Node} {j : Nat} {c : Node} (hn : root.children[i]? = some n)
      (hexport : n.kind = .exportStatement) (hc : n.HasField .declaration j c)
      (hclass : c.kind.isClassDeclaration = true) : ExportsClass root [i, j] c
  | byName {i : Nat} {c n : Node} {t : Text} (hc : root.children[i]? = some c)
      (hclass : c.kind.isClassDeclaration = true) (hname : c.declaredName = some t) (hn : n ∈ root.children)
      (hexport : n.NamesExport t) : ExportsClass root [i] c

/-- The class at the position is the value of an export statement. -/
inductive ExportsClassValue (root : Node) : Position → Node → Prop
  | intro {i : Nat} {n : Node} {j : Nat} {c : Node} (hn : root.children[i]? = some n)
      (hexport : n.kind = .exportStatement) (hc : n.HasField .value j c) (hclass : c.kind = .classExpression) :
      ExportsClassValue root [i, j] c

/-- The symbol is that of a public method of an exported class, at its position in the class. -/
inductive PublicMethod (c : Node) : Position → Symbol → Prop
  | intro {j : Nat} {body : Node} {k : Nat} {m : Node} (hbody : c.HasField .body j body)
      (hm : body.children[k]? = some m) (hkind : m.kind = .method) (hprivate : m.isPrivate = false)
      (haccessor : m.isAccessor = false) :
      PublicMethod c [j, k]
        (symbol .method m.methodName m true (body.children.take k).reverse c.declaredName)

theorem exportStatement_not_class {n : Node} (h : n.kind = .exportStatement) :
    n.kind.isClassDeclaration = false := by
  rw [h]
  rfl

/-- What a class declaration is, a statement declares it and exports it exactly if the class is exported. -/
theorem exportsClass_iff {q : Position} {c : Node} :
    root.ExportsClass q c ↔ ∃ i n p, q = i :: p ∧ root.children[i]? = some n ∧ n.Declares p c ∧
      c.kind.isClassDeclaration = true ∧ root.Exports n c.declaredName := by
  constructor
  · intro h
    cases h with
    | @keyword i n j _ hn hexport hc hclass => exact ⟨i, n, [j], rfl, hn, .exported hexport hc, hclass, Or.inl hexport⟩
    | @byName i _ n t hc hclass hname hn hexport =>
      have hplain : c.kind ≠ .exportStatement := by
        intro hkind
        rw [exportStatement_not_class hkind] at hclass
        cases hclass
      exact ⟨i, c, [], rfl, hc, .plain hplain, hclass, Or.inr ⟨t, mem_exports.mpr ⟨n, hn, hexport⟩, hname⟩⟩
  · rintro ⟨i, n, p, rfl, hn, hdeclares, hclass, hexports⟩
    cases hdeclares with
    | plain hplain =>
      obtain ⟨t, ht, hname⟩ := hexports.resolve_left hplain
      obtain ⟨n', hn', hexport⟩ := mem_exports.mp ht
      exact .byName hn hclass hname hn' hexport
    | exported hexport hc => exact .keyword hn hexport hc hclass

/-- The exported symbols among the methods are those of the public methods of exported classes. -/
theorem isCandidate_exported_iff {p : Position} {x : Symbol} :
    IsCandidate root .method p x ∧ x.isExported = true ↔
      ∃ q c r, root.ExportsClass q c ∧ p = q ++ r ∧ c.PublicMethod r x := by
  constructor
  · rintro ⟨hx, hexported⟩
    cases hx with
    | @method i n q c j body k m b hn hc hclass hbody hm hkind hprivate haccessor hb =>
      obtain rfl : b = true := hexported
      exact ⟨i :: q, c, [j, k], exportsClass_iff.mpr ⟨i, n, q, rfl, hn, hc, hclass, hb.mp rfl⟩, rfl,
        .intro hbody hm hkind hprivate haccessor⟩
  · rintro ⟨q, c, r, hclass, rfl, hmethod⟩
    obtain ⟨i, n, q, rfl, hn, hdeclares, hclass, hexports⟩ := exportsClass_iff.mp hclass
    cases hmethod with
    | intro hbody hm hkind hprivate haccessor =>
      exact ⟨.method hn hdeclares hclass hbody hm hkind hprivate haccessor (iff_of_true rfl hexports), rfl⟩

/-- Every candidate stands at or below what a statement shows. -/
theorem IsCandidate.exists_shows {k : SymbolKind} {p : Position} {x : Symbol} (h : IsCandidate root k p x) :
    ∃ i n q d r, root.children[i]? = some n ∧ n.Shows q d ∧ p = i :: (q ++ r) := by
  cases h with
  | @declaration i n q f _ hn hf => exact ⟨i, n, q, f, [], hn, Or.inl hf, by rw [List.append_nil]⟩
  | @value i n q f _ hn hf => exact ⟨i, n, q, f, [], hn, Or.inr hf, by rw [List.append_nil]⟩
  | @binding i n q d j _ k _ _ hn hd => exact ⟨i, n, q, d, [j, k], hn, Or.inl hd, rfl⟩
  | @method i n q c j _ k _ _ hn hc => exact ⟨i, n, q, c, [j, k], hn, Or.inl hc, rfl⟩

/-- Nothing in a class that is exported as a value is a candidate. -/
theorem ExportsClassValue.not_isCandidate {q r : Position} {c : Node} {k : SymbolKind} {x : Symbol}
    (h : root.ExportsClassValue q c) : ¬ IsCandidate root k (q ++ r) x := by
  intro hx
  cases h with
  | @intro i n j _ hn hexport hc hclass =>
    obtain ⟨i', n', q', d, r', hn', hshows, hposition⟩ := hx.exists_shows
    obtain ⟨rfl, hbelow⟩ := List.cons.inj hposition
    obtain rfl : n = n' := Option.some.inj (hn.symm.trans hn')
    rcases hshows with hdeclares | hvalue
    · cases hdeclares with
      | plain hplain => exact hplain hexport
      | @exported j' _ _ hd =>
        obtain ⟨rfl, -⟩ := List.cons.inj hbelow
        obtain rfl : c = d := Option.some.inj (hc.child.symm.trans hd.child)
        have hlabel := hc.label.symm.trans hd.label
        cases hlabel
    · cases hvalue with
      | intro _ _ hv hkind =>
        obtain ⟨-, rfl⟩ := hc.unique hv
        rw [hclass] at hkind
        cases hkind

/-- Of the methods of a file, the exported ones are those that stand directly in a class which the file exports by a
keyword in front of it or by its name, and are neither private nor accessors: one for each, in the order of the
text. Of a class that is exported as a value there are none, and nothing else in it is a symbol either. -/
theorem exported_methods (root : Node) :
    Lists (fun p x => ∃ q c r, root.ExportsClass q c ∧ p = q ++ r ∧ c.PublicMethod r x)
      (root.symbols.methods.filter (·.isExported)) ∧
    ∀ q c, root.ExportsClassValue q c → ∀ k r x, ¬ IsCandidate root k (q ++ r) x := by
  have hmethods : Lists (IsCandidate root .method) root.symbols.methods := methods_exact root
  refine ⟨(hmethods.filter (·.isExported)).congr fun p x => isCandidate_exported_iff, ?_⟩
  intro q c h k r x
  exact h.not_isCandidate

/-- A file that exports a class as its default, and gives it no name. -/
def namelessClass : Text := "export default class \x7b m() \x7b\x7d \x7d"

/-- The class has a public method, and the file no symbols. -/
theorem namelessClass_lost :
    let root := ofText .typescript namelessClass
    (∃ q c r x, root.ExportsClassValue q c ∧ c.PublicMethod r x ∧ x.name = some "m".toList) ∧
      root.symbols.candidates = [] := by
  intro root
  have hpath : (root.children[0]?.bind fun n => (n.child? .value).bind fun c => (c.child? .body).bind fun body =>
      body.children[0]?.map fun m => n.kind = .exportStatement && c.kind = .classExpression && m.kind = .method &&
        !m.isPrivate && !m.isAccessor && m.methodName = some "m".toList) = some true := by decide +kernel
  have hempty : root.symbols.candidates.isEmpty = true := by decide +kernel
  obtain ⟨n, hn, hpath⟩ := Option.bind_eq_some_iff.mp hpath
  obtain ⟨c, hc, hpath⟩ := Option.bind_eq_some_iff.mp hpath
  obtain ⟨body, hbody, hpath⟩ := Option.bind_eq_some_iff.mp hpath
  obtain ⟨m, hm, hfields⟩ := Option.map_eq_some_iff.mp hpath
  simp only [Bool.and_eq_true, decide_eq_true_eq, Bool.not_eq_true'] at hfields
  obtain ⟨⟨⟨⟨⟨hexport, hclass⟩, hkind⟩, hprivate⟩, haccessor⟩, hname⟩ := hfields
  obtain ⟨i, hvalue⟩ := child?_eq_some_iff.mp hc
  obtain ⟨j, hfield⟩ := child?_eq_some_iff.mp hbody
  exact ⟨⟨_, c, _, _, .intro hn hexport hvalue hclass, .intro hfield hm hkind hprivate haccessor, hname⟩,
    List.isEmpty_iff.mp hempty⟩

end Node

end CodeManifest.Source
