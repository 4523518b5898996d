import CodeManifest.Source.Extract
import Mathlib.Data.List.Flatten
import Mathlib.Data.List.Forall2

namespace CodeManifest.Source

namespace Node

mutual

/-- The nodes of a tree in the order in which they begin in the text. -/
def preorder : Node → List Node
  | ⟨kind, label, text, line, damaged, children⟩ =>
    ⟨kind, label, text, line, damaged, children⟩ :: preorders children

/-- The nodes of several trees, one after another. -/
def preorders : List Node → List Node
  | [] => []
  | n :: ns => preorder n ++ preorders ns

end

theorem preorders_eq_flatMap (ns : List Node) : preorders ns = ns.flatMap preorder := by
  induction ns with
  | nil => rfl
  | cons n ns ih => rw [preorders, ih, List.flatMap_cons]

theorem preorder_eq (n : Node) : n.preorder = n :: n.children.flatMap preorder := by
  rw [← preorders_eq_flatMap]
  cases n
  rw [preorder]

theorem children_sublist_preorder {n : Node} {cs : List Node} (h : cs.Sublist n.children) :
    (cs.flatMap preorder).Sublist n.preorder := by
  rw [preorder_eq]
  exact (h.flatMap preorder).cons n

/-- The symbol is made of the function at the node `f`. -/
def IsSymbolOf (kind : SymbolKind) (f : Node) (x : Symbol) : Prop :=
  ∃ name isExported before className, x = symbol kind name f isExported before className

/-- The symbols are made of some of the nodes, each of another one and in the order of these. -/
def InOrder (kind : SymbolKind) (ns : List Node) (xs : List Symbol) : Prop :=
  ∃ fs : List Node, fs.Sublist ns ∧ List.Forall₂ (IsSymbolOf kind) fs xs

namespace InOrder

variable {kind : SymbolKind} {n : Node} {ns ms : List Node} {xs ys : List Symbol}

theorem nil : InOrder kind ns [] := ⟨[], List.nil_sublist _, List.Forall₂.nil⟩

theorem mono (h : InOrder kind ns xs) (hsub : ns.Sublist ms) : InOrder kind ms xs := by
  obtain ⟨fs, hfs, hxs⟩ := h
  exact ⟨fs, hfs.trans hsub, hxs⟩

theorem append (hx : InOrder kind ns xs) (hy : InOrder kind ms ys) :
    InOrder kind (ns ++ ms) (xs ++ ys) := by
  obtain ⟨fs, hfs, hxs⟩ := hx
  obtain ⟨gs, hgs, hys⟩ := hy
  exact ⟨fs ++ gs, hfs.append hgs, List.rel_append hxs hys⟩

/-- Each symbol is made of one of the nodes. -/
theorem exists_of_mem {x : Symbol} (h : InOrder kind ns xs) (hx : x ∈ xs) :
    ∃ f ∈ ns, IsSymbolOf kind f x := by
  obtain ⟨fs, hsub, hxs⟩ := h
  obtain ⟨f, hf, hfx⟩ : ∃ f ∈ fs, IsSymbolOf kind f x := by
    clear hsub
    induction hxs with
    | nil => cases hx
    | @cons f y fs ys hfy _ ih =>
      rcases List.mem_cons.mp hx with rfl | hx
      · exact ⟨f, List.mem_cons_self, hfy⟩
      · obtain ⟨g, hg, hgx⟩ := ih hx
        exact ⟨g, List.mem_cons_of_mem f hg, hgx⟩
  exact ⟨f, hsub.subset hf, hfx⟩

theorem self (name : Option Text) (isExported : Bool) (before : List Node)
    (className : Option Text) :
    InOrder kind n.preorder [symbol kind name n isExported before className] := by
  refine ⟨[n], ?_, List.Forall₂.cons ⟨_, _, _, _, rfl⟩ List.Forall₂.nil⟩
  rw [preorder_eq]
  exact (List.nil_sublist _).cons_cons n

theorem of_child {c : Node} (hc : c ∈ n.children) (h : InOrder kind c.preorder xs) :
    InOrder kind n.preorder xs := by
  have hsub : [c].Sublist n.children := List.singleton_sublist.mpr hc
  have hpre := children_sublist_preorder hsub
  rw [List.flatMap_singleton] at hpre
  exact h.mono hpre

/-- What comes of some children, taken in their order, is in order. -/
theorem of_children {ι : Type} {node : ι → Node} {is : List ι} {g : ι → List Symbol}
    (his : (is.map node).Sublist n.children) (hg : ∀ i, InOrder kind (node i).preorder (g i)) :
    InOrder kind n.preorder (is.flatMap g) := by
  have hall : InOrder kind ((is.map node).flatMap preorder) (is.flatMap g) := by
    clear his
    induction is with
    | nil => exact nil
    | cons i is ih =>
      rw [List.map_cons, List.flatMap_cons, List.flatMap_cons]
      exact (hg i).append ih
  exact hall.mono (children_sublist_preorder his)

end InOrder

theorem map_snd_withBefore (before ns : List Node) : (withBefore before ns).map Prod.snd = ns := by
  induction ns generalizing before with
  | nil => rfl
  | cons n ns ih => rw [withBefore, List.map_cons, ih]

theorem mem_children_of_child? {n c : Node} {l : Label} (h : n.child? l = some c) :
    c ∈ n.children := List.mem_of_find?_eq_some h

theorem mem_children_of_exportedDeclaration? {n d : Node} (h : exportedDeclaration? n = some d) :
    d ∈ n.children := by
  unfold exportedDeclaration? at h
  split at h
  next hd =>
    cases h
    exact mem_children_of_child? hd
  next => exact mem_children_of_child? (Option.filter_eq_some_iff.mp h).1

/-- What comes of each declaration at the top is in order if it is so for the declaration alone. -/
theorem inOrder_topLevel {kind : SymbolKind} {g : TopLevel → List Symbol}
    (hg : ∀ t, InOrder kind t.declaration.preorder (g t)) (root : Node) :
    InOrder kind root.preorder (root.topLevel.flatMap g) := by
  unfold topLevel
  rw [List.filterMap_eq_flatMap_toList, List.flatMap_assoc]
  have hall : ((withBefore [] root.children).map Prod.snd).Sublist root.children := by
    rw [map_snd_withBefore]
  refine InOrder.of_children hall ?_
  rintro ⟨before, n⟩
  dsimp only
  by_cases hn : n.kind = .exportStatement
  · rw [if_pos hn]
    cases hd : exportedDeclaration? n with
    | none => exact InOrder.nil
    | some d =>
      have hmem := mem_children_of_exportedDeclaration? hd
      simpa using InOrder.of_child hmem (hg ⟨d, before, true⟩)
  · rw [if_neg hn]
    simpa using hg ⟨n, before, false⟩

theorem declarations_inOrder (root : Node) : InOrder .declaration root.preorder root.declarations := by
  unfold declarations
  rw [List.filterMap_eq_flatMap_toList]
  apply inOrder_topLevel
  intro t
  dsimp only
  split
  · exact InOrder.self _ _ _ _
  · exact InOrder.nil

theorem boundFunction?_mem {d f : Node} {name : Option Text}
    (h : boundFunction? d = some (name, f)) : f ∈ d.children := by
  unfold boundFunction? at h
  split at h
  next => cases h
  next v hv =>
    split at h
    · cases h
      exact mem_children_of_child? hv
    · cases h

theorem bindings_inOrder (root : Node) : InOrder .binding root.preorder root.bindings := by
  unfold bindings
  apply inOrder_topLevel
  intro t
  split
  · have hsub : ((t.declaration.childrenOf .declarator).map id).Sublist t.declaration.children := by
      rw [List.map_id]
      exact List.filter_sublist
    rw [List.filterMap_eq_flatMap_toList, List.map_flatMap]
    refine InOrder.of_children hsub ?_
    intro d
    cases hf : boundFunction? d with
    | none => exact InOrder.nil
    | some e => exact InOrder.of_child (boundFunction?_mem hf) (InOrder.self _ _ _ _)
  · exact InOrder.nil

theorem methods_inOrder (root : Node) : InOrder .method root.preorder root.methods := by
  unfold methods
  apply inOrder_topLevel
  intro t
  split
  · cases hb : t.declaration.child? .body with
    | none => exact InOrder.nil
    | some body =>
      have hsub : (((withBefore [] body.children).filter fun e => isPublicMethod e.2).map
          Prod.snd).Sublist body.children := by
        have h := (List.filter_sublist (p := fun e => isPublicMethod e.2)
          (l := withBefore [] body.children)).map Prod.snd
        rwa [map_snd_withBefore] at h
      refine InOrder.of_child (mem_children_of_child? hb) ?_
      dsimp only [Option.map_some, Option.getD_some]
      rw [List.map_eq_flatMap]
      refine InOrder.of_children hsub ?_
      intro e
      exact InOrder.self _ _ _ _
  · exact InOrder.nil

/-- Functions of the tree come before variables bound to functions and these before methods, and each of
the three groups follows the text. -/
def Orders (root : Node) (xs : List Symbol) : Prop :=
  ∃ ds bs ms, xs = ds ++ bs ++ ms ∧ InOrder .declaration root.preorder ds ∧
    InOrder .binding root.preorder bs ∧ InOrder .method root.preorder ms

theorem orders_candidates (root : Node) : root.Orders root.symbols.candidates :=
  ⟨root.declarations, root.bindings, root.methods, rfl, declarations_inOrder root,
    bindings_inOrder root, methods_inOrder root⟩

theorem isSymbolOf_of_mem_candidates {root : Node} {x : Symbol}
    (hx : x ∈ root.symbols.candidates) : ∃ kind f, IsSymbolOf kind f x := by
  have hgroup {kind : SymbolKind} {xs : List Symbol} (h : InOrder kind root.preorder xs)
      (hx : x ∈ xs) : ∃ kind f, IsSymbolOf kind f x := by
    obtain ⟨f, -, hf⟩ := h.exists_of_mem hx
    exact ⟨kind, f, hf⟩
  obtain ⟨ds, bs, ms, heq, hds, hbs, hms⟩ := orders_candidates root
  rw [heq, List.mem_append, List.mem_append] at hx
  rcases hx with (hx | hx) | hx
  · exact hgroup hds hx
  · exact hgroup hbs hx
  · exact hgroup hms hx

end Node

end CodeManifest.Source
