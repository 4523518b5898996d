import CodeManifest.Proofs.Manifest
import CodeManifest.Proofs.Source.Candidates

namespace CodeManifest

namespace Source.Node

/-- The pattern that a parameter binds. The parameter `this` binds none. -/
inductive BindsPattern (n : Node) : Node → Prop
  | typed {j : Nat} {p : Node} (hkind : n.kind = .required ∨ n.kind = .optional) (hp : n.HasField .pattern j p)
      (hthis : p.kind ≠ .this) : BindsPattern n p
  | plain (hkind : n.kind = .identifier ∨ n.kind = .restPattern) : BindsPattern n n
  | defaulted {j : Nat} {p : Node} (hkind : n.kind = .assignmentPattern) (hp : n.HasField .left j p) : BindsPattern n p

def IsParameter (n : Node) : Prop := ∃ p, n.BindsPattern p

/-- The parameter takes all that is left, with or without a type. -/
def IsRest (n : Node) : Prop :=
  n.kind = .restPattern ∨
    (n.kind = .required ∨ n.kind = .optional) ∧ ∃ j p, n.HasField .pattern j p ∧ p.kind = .restPattern

/-- The type that is written behind a parameter. -/
def writtenType (n : Node) : Option Text := (n.child? .type).bind annotatedType

/-- The parameter is what the node says. -/
structure Written (n : Node) (x : Parameter) : Prop where
  name : ∃ p, n.BindsPattern p ∧ x.name = (patternName p).1
  optional : x.isOptional = true ↔ n.kind = .optional
  rest : x.isRest = true ↔ n.IsRest
  annotated : n.kind = .required ∨ n.kind = .optional → ∀ t, n.writtenType = some t → x.type = some t
  unannotated : n.IsRest → n.writtenType = none → x.type = some "any[]".toList

theorem patternName_snd (p : Node) : (patternName p).2 = decide (p.kind = .restPattern) := by
  unfold patternName
  by_cases h : p.kind = .restPattern
  · simp [h]
  · simp [h]

theorem typedParameter?_eq {n p : Node} (hp : n.child? .pattern = some p) (hthis : p.kind ≠ .this) :
    typedParameter? n = some {
      name := (patternName p).1
      type := (if n.writtenType.isNone && (patternName p).2 then some restType else n.writtenType).orElse
        fun _ => (n.child? .value).bind literalType
      default := (n.child? .value).map (·.text)
      isOptional := n.kind = .optional
      isRest := (patternName p).2 } := by
  unfold typedParameter?
  simp only [hp, if_neg hthis]
  rfl

theorem exists_written_typed {n p : Node} {j : Nat} (hkind : n.kind = .required ∨ n.kind = .optional)
    (hp : n.HasField .pattern j p) (hthis : p.kind ≠ .this) : ∃ x, n.parameter? = some x ∧ n.Written x := by
  have hread : n.parameter? = typedParameter? n := by
    unfold parameter?
    rcases hkind with h | h
    · rw [h]
    · rw [h]
  have hrest : n.IsRest ↔ p.kind = .restPattern := by
    constructor
    · rintro (h | ⟨-, j', p', hp', hrest⟩)
      · rw [h] at hkind
        simp at hkind
      · rwa [(hp.unique hp').2]
    · intro h
      exact Or.inr ⟨hkind, j, p, hp, h⟩
  rw [hread, typedParameter?_eq hp.child?_eq hthis]
  refine ⟨_, rfl, ⟨p, .typed hkind hp hthis, rfl⟩, ?_, ?_, ?_, ?_⟩
  · simp
  · rw [hrest, patternName_snd, decide_eq_true_eq]
  · intro _ t ht
    simp [ht]
  · intro h htype
    simp [htype, patternName_snd, hrest.mp h, restType]

theorem exists_written_plain {n : Node} (hkind : n.kind = .identifier ∨ n.kind = .restPattern) :
    ∃ x, n.parameter? = some x ∧ n.Written x := by
  have hother : n.kind ≠ .assignmentPattern ∧ n.kind ≠ .required ∧ n.kind ≠ .optional := by
    rcases hkind with h | h
    · simp [h]
    · simp [h]
  have hread : n.parameter? = some {
      name := (patternName n).1
      type := if (patternName n).2 then some restType else none
      isRest := (patternName n).2 } := by
    unfold parameter?
    rcases hkind with h | h
    · rw [h, plainParameter?, if_neg hother.1]
    · rw [h, plainParameter?, if_neg hother.1]
  have hrest : n.IsRest ↔ n.kind = .restPattern := by
    constructor
    · rintro (h | ⟨h | h, -⟩)
      · exact h
      · exact absurd h hother.2.1
      · exact absurd h hother.2.2
    · exact Or.inl
  rw [hread]
  refine ⟨_, rfl, ⟨n, .plain hkind, rfl⟩, ?_, ?_, ?_, ?_⟩
  · simp [hother]
  · rw [hrest, patternName_snd, decide_eq_true_eq]
  · rintro (h | h)
    · exact absurd h hother.2.1
    · exact absurd h hother.2.2
  · intro h _
    simp [patternName_snd, hrest.mp h, restType]

theorem exists_written_defaulted {n p : Node} {j : Nat} (hkind : n.kind = .assignmentPattern)
    (hp : n.HasField .left j p) : ∃ x, n.parameter? = some x ∧ n.Written x := by
  have hrest : ¬ n.IsRest := by simp [IsRest, hkind]
  have hread : n.parameter? = some {
      name := (patternName p).1
      type := (n.child? .right).bind literalType
      default := (n.child? .right).map (·.text) } := by
    unfold parameter?
    rw [hkind]
    simp only [plainParameter?, hkind, if_true, hp.child?_eq, Option.map_some]
  rw [hread]
  refine ⟨_, rfl, ⟨p, .defaulted hkind hp, rfl⟩, ?_, ?_, ?_, ?_⟩
  · simp [hkind]
  · simp [hrest]
  · simp [hkind]
  · intro h
    exact absurd h hrest

theorem exists_written {n : Node} (h : n.IsParameter) : ∃ x, n.parameter? = some x ∧ n.Written x := by
  obtain ⟨p, hp⟩ := h
  cases hp with
  | typed hkind hp hthis => exact exists_written_typed hkind hp hthis
  | plain hkind => exact exists_written_plain hkind
  | defaulted hkind hp => exact exists_written_defaulted hkind hp

theorem isParameter_of_parameter? {n : Node} {x : Parameter} (h : n.parameter? = some x) : n.IsParameter := by
  have htyped (hkind : n.kind = .required ∨ n.kind = .optional) (h : n.typedParameter? = some x) : n.IsParameter := by
    cases hp : n.child? .pattern with
    | none =>
      rw [typedParameter?, hp] at h
      cases h
    | some p =>
      obtain ⟨j, hj⟩ := child?_eq_some_iff.mp hp
      refine ⟨p, .typed hkind hj ?_⟩
      intro hthis
      simp [typedParameter?, hp, hthis] at h
  unfold parameter? at h
  split at h
  · next hkind => exact htyped (Or.inl hkind) h
  · next hkind => exact htyped (Or.inr hkind) h
  · next hkind => exact ⟨n, .plain (Or.inl hkind)⟩
  · next hkind => exact ⟨n, .plain (Or.inr hkind)⟩
  · next hkind =>
    rw [plainParameter?, if_pos hkind] at h
    obtain ⟨p, hp, -⟩ := Option.map_eq_some_iff.mp h
    obtain ⟨j, hj⟩ := child?_eq_some_iff.mp hp
    exact ⟨p, .defaulted hkind hj⟩
  · cases h

theorem isSome_parameter?_iff {n : Node} : n.parameter?.isSome = true ↔ n.IsParameter := by
  rw [Option.isSome_iff_exists]
  constructor
  · intro ⟨x, hx⟩
    exact isParameter_of_parameter? hx
  · intro h
    obtain ⟨x, hx, -⟩ := exists_written h
    exact ⟨x, hx⟩

instance (n : Node) : Decidable n.IsParameter := decidable_of_iff _ isSome_parameter?_iff

theorem forall₂_written (ns : List Node) :
    List.Forall₂ Written (ns.filter fun n => n.IsParameter) (ns.filterMap parameter?) := by
  induction ns with
  | nil => exact List.Forall₂.nil
  | cons n ns ih =>
    by_cases h : n.IsParameter
    · obtain ⟨x, hx, hwritten⟩ := exists_written h
      rw [List.filter_cons_of_pos (by simpa using h), List.filterMap_cons_some hx]
      exact List.Forall₂.cons hwritten ih
    · have hnone : n.parameter? = none := by
        rw [← isSome_parameter?_iff] at h
        simpa using h
      rw [List.filter_cons_of_neg (by simpa using h), List.filterMap_cons_none hnone]
      exact ih

end Source.Node

namespace Tool

open Source (Node)

/-- What a parameter of a function is to a tool. -/
def takenAs (x : Source.Parameter) : Text × Parameter := (x.name, .ofType (.ofText x.type) (!x.isOptional))

theorem parametersOf_eq (xs : List Source.Parameter) :
    parametersOf xs = Keyed.ofList (xs.filterMap fun x => some (takenAs x)) := by
  have hmap : (xs.filterMap fun x => some (takenAs x)) = xs.map takenAs :=
    congrFun (List.filterMap_eq_map (f := takenAs)) xs
  rw [hmap]
  rfl

/-- Number `i` is `x`, the last of its name. -/
structure LastNamed (xs : List Source.Parameter) (i : Nat) (x : Source.Parameter) : Prop where
  here : xs[i]? = some x
  none_later : ∀ j y, i < j → xs[j]? = some y → y.name ≠ x.name

/-- What a tool takes is of the type of the parameter. It is required but where the node has a question mark. -/
structure IsSchema (n : Node) (x : Source.Parameter) (p : Parameter) : Prop where
  eq_ofType : p = .ofType (.ofText x.type) (!x.isOptional)
  required : p.required = true ↔ n.kind ≠ .optional
  array : n.IsRest → n.writtenType = none → p.type = "array".toList

/-- The tool takes the parameters that are written, each name once and where it comes up first. Of two with one name
the last counts. -/
structure Takes (t : Descriptor) (ns : List Node) (xs : List Source.Parameter) : Prop where
  distinct : (Keyed.keys t.parameters).Nodup
  inOrder : ∃ positions : List Nat, positions.Pairwise (· < ·) ∧
    List.Forall₂ (FirstAt (fun x : Source.Parameter => some x.name) id xs) positions (Keyed.keys t.parameters)
  complete : ∀ x ∈ xs, x.name ∈ Keyed.keys t.parameters
  last : ∀ e ∈ t.parameters, ∃ (i : Nat) (n : Node) (x : Source.Parameter),
    ns[i]? = some n ∧ LastNamed xs i x ∧ n.Written x ∧ x.name = e.1 ∧ IsSchema n x e.2

theorem getElem?_of_forall₂ {α β : Type} {R : α → β → Prop} {as : List α} {bs : List β} (h : List.Forall₂ R as bs)
    {i : Nat} {b : β} (hb : bs[i]? = some b) : ∃ a, as[i]? = some a ∧ R a b := by
  induction h generalizing i with
  | nil => cases hb
  | cons hab _ ih =>
    cases i with
    | zero =>
      obtain rfl := Option.some.inj hb
      exact ⟨_, rfl, hab⟩
    | succ i => exact ih hb

theorem type_of_rest {x : Source.Parameter} (h : x.type = some "any[]".toList) (required : Bool) :
    (Parameter.ofType (.ofText x.type) required).type = "array".toList := by
  rw [h]
  have hkind : (TypeInfo.ofText (some "any[]".toList)).kind = "array".toList := by decide +kernel
  exact hkind

theorem lastNamed_of_split {xs before after : List Source.Parameter} {x : Source.Parameter}
    (hxs : xs = before ++ x :: after) (hafter : ∀ y ∈ after, y.name ≠ x.name) : LastNamed xs before.length x := by
  refine ⟨?_, ?_⟩
  · rw [hxs, List.getElem?_append_right (Nat.le_refl _), Nat.sub_self, List.getElem?_cons_zero]
  · intro j y hj hy
    apply hafter
    have hrest : j - before.length = j - before.length - 1 + 1 := by omega
    rw [hxs, List.getElem?_append_right hj.le, hrest, List.getElem?_cons_succ] at hy
    exact List.mem_of_getElem? hy

theorem isSchema_takenAs {n : Node} {x : Source.Parameter} (h : n.Written x) : IsSchema n x (takenAs x).2 := by
  refine ⟨rfl, ?_, ?_⟩
  · have hrequired : (takenAs x).2.required = !x.isOptional := rfl
    rw [hrequired, Bool.not_eq_true', ← Bool.not_eq_true]
    exact not_congr h.optional
  · intro hrest htype
    exact type_of_rest (h.unannotated hrest htype) _

theorem takes_of_written {t : Descriptor} {ns : List Node} {xs : List Source.Parameter}
    (ht : t.parameters = parametersOf xs) (h : List.Forall₂ Node.Written ns xs) : Takes t ns xs := by
  have hkey : ∀ x ∈ xs, (some (takenAs x)).map Prod.fst = some x.name := fun x _ => rfl
  rw [parametersOf_eq] at ht
  refine ⟨?_, ?_, ?_, ?_⟩
  · rw [ht]
    exact Keyed.nodup_keys_ofList _
  · rw [ht]
    exact Keyed.exists_positions_keys hkey
  · intro x hx
    rw [ht]
    exact (Keyed.mem_keys_ofList_filterMap hkey).mpr ⟨x, hx, rfl⟩
  · intro e he
    rw [ht] at he
    obtain ⟨before, x, after, hxs, hx, hafter⟩ := Keyed.exists_last_of_mem_ofList hkey he
    obtain rfl : takenAs x = e := Option.some.inj hx
    have hlast : LastNamed xs before.length x := by
      refine lastNamed_of_split hxs ?_
      intro y hy hname
      exact hafter y hy (congrArg some hname)
    obtain ⟨n, hn, hwritten⟩ := getElem?_of_forall₂ h hlast.here
    exact ⟨before.length, n, x, hn, hlast, hwritten, rfl, isSchema_takenAs hwritten⟩

/-- The properties of a tool are its parameters. -/
theorem exists_properties (t : Descriptor) (h : (Keyed.keys t.parameters).Nodup) :
    ∃ properties, (Manifest.tool t).under? ["inputSchema", "properties"] = some (Manifest.object properties) ∧
      Keyed.keys properties = Keyed.keys t.parameters ∧
      ∀ e ∈ t.parameters, (Manifest.object properties).under? [e.1] = some (Manifest.parameter e.2) := by
  refine ⟨t.parameters.map fun e => (e.1, Manifest.parameter e.2), rfl, ?_, ?_⟩
  · simp [Keyed.keys]
  · intro e he
    rw [Value.under?, Manifest.get?_object, Manifest.get?_map, Keyed.get?_of_mem h he]
    rfl

/-- The parameters in the list of a function are read in the order of the source, one for each child that is written as
one; its tool takes each of their names, and the properties in the manifest are what it takes. -/
theorem parameters_survive {f ps : Node} (h : f.child? .parameters = some ps) (kind : Source.SymbolKind)
    (symbolName : Option Text) (isExported : Bool) (before : List Node) (className : Option Text) (name path : Text) :
    let s := Node.symbol kind symbolName f isExported before className
    let t := Descriptor.ofSymbol name s path
    let ns := ps.children.filter fun n => n.IsParameter
    List.Forall₂ Node.Written ns s.parameters ∧ Takes t ns s.parameters ∧
    ∃ properties, (Manifest.tool t).under? ["inputSchema", "properties"] = some (Manifest.object properties) ∧
      Keyed.keys properties = Keyed.keys t.parameters ∧
      ∀ e ∈ t.parameters, (Manifest.object properties).under? [e.1] = some (Manifest.parameter e.2) := by
  intro s t ns
  have hlist : s.parameters = ps.children.filterMap Node.parameter? := by
    change Node.parametersOf f = _
    rw [Node.parametersOf, h]
  have hwritten : List.Forall₂ Node.Written ns s.parameters := by
    rw [hlist]
    exact Node.forall₂_written ps.children
  have htakes : Takes t ns s.parameters := takes_of_written rfl hwritten
  exact ⟨hwritten, htakes, exists_properties t htakes.distinct⟩

/-- A function with a parameter `this`, one with a question mark, a name that comes twice, and one that takes all that
is left. -/
def signature : Node :=
  let t : Text := "function f(this: W, a: string, b?: number, \x7b c \x7d, a = 1, ...rest) \x7b\x7d\n"
  ((Node.ofText .typescript t).children.head?).getD default

theorem parameters_survive_signature :
    let s := Node.symbol .declaration (some ['f']) signature true [] none
    let t := Descriptor.ofSymbol ['f'] s "f.ts"
    t.parameters.map (fun e => (e.1, e.2.type, e.2.required)) = [
      ("a".toList, "number".toList, true), ("b".toList, "number".toList, false),
      ("\x7b c \x7d".toList, "any".toList, true), ("rest".toList, "array".toList, true)] ∧
    ∃ ps, signature.child? .parameters = some ps ∧
      List.Forall₂ Node.Written (ps.children.filter fun n => n.IsParameter) s.parameters ∧
      Takes t (ps.children.filter fun n => n.IsParameter) s.parameters := by
  intro s t
  have hlist : (signature.child? .parameters).isSome = true := by decide +kernel
  obtain ⟨ps, hps⟩ := Option.isSome_iff_exists.mp hlist
  obtain ⟨hwritten, htakes, -⟩ := parameters_survive hps .declaration (some ['f']) true [] none ['f'] "f.ts"
  exact ⟨by decide +kernel, ps, hps, hwritten, htakes⟩

end Tool

end CodeManifest
