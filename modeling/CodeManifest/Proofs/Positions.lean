import Mathlib.Data.List.Lex
import Mathlib.Data.List.Nodup
import Mathlib.Tactic.Common

namespace CodeManifest

/-- A place in a tree: the numbers of the children on the way from its root. The order of positions is that
in which the nodes begin in a text. -/
abbrev Position := List Nat

/-- The list holds what `P` puts at a position, once for each position and in the order of these, and holds
nothing else. -/
def Lists {β : Type} (P : Position → β → Prop) (xs : List β) : Prop :=
  ∃ es : List (Position × β), es.map Prod.snd = xs ∧ (es.map Prod.fst).Pairwise (· < ·) ∧
    ∀ p x, (p, x) ∈ es ↔ P p x

namespace Lists

variable {α β : Type} {P Q : Position → β → Prop} {xs ys : List β}

theorem congr (h : Lists P xs) (hPQ : ∀ p x, P p x ↔ Q p x) : Lists Q xs := by
  obtain ⟨es, hxs, horder, hmem⟩ := h
  exact ⟨es, hxs, horder, fun p x => (hmem p x).trans (hPQ p x)⟩

theorem nil (h : ∀ p x, ¬ P p x) : Lists P [] :=
  ⟨[], rfl, List.Pairwise.nil, fun p x => iff_of_false List.not_mem_nil (h p x)⟩

/-- One thing, at the node itself. -/
theorem here (x : β) : Lists (fun p y => p = [] ∧ y = x) [x] := by
  refine ⟨[([], x)], rfl, List.pairwise_singleton _ _, ?_⟩
  intro p y
  rw [List.mem_singleton, Prod.mk.injEq]

theorem ite {c : Prop} [Decidable c] (h : Lists P xs) :
    Lists (fun p x => c ∧ P p x) (if c then xs else []) := by
  by_cases hc : c
  · rw [if_pos hc]
    exact h.congr fun p x => (and_iff_right hc).symm
  · rw [if_neg hc]
    exact nil fun p x hx => hc hx.1

/-- One thing at the node itself, under a condition. -/
theorem guard (c : Prop) [Decidable c] (x : β) :
    Lists (fun p y => c ∧ p = [] ∧ y = x) (if c then some x else none).toList := by
  rw [apply_ite Option.toList]
  exact (here x).ite

/-- What is kept of a list stands where it stood. -/
theorem filter (h : Lists P xs) (f : β → Bool) : Lists (fun p x => P p x ∧ f x = true) (xs.filter f) := by
  obtain ⟨es, rfl, horder, hmem⟩ := h
  refine ⟨es.filter fun e => f e.2, ?_, ?_, ?_⟩
  · rw [List.filter_map]
    rfl
  · exact horder.sublist (List.filter_sublist.map Prod.fst)
  · intro p x
    rw [List.mem_filter, hmem]

/-- A position holds one thing at most. -/
theorem unique (h : Lists P xs) {p : Position} {x y : β} (hx : P p x) (hy : P p y) : x = y := by
  obtain ⟨es, -, horder, hmem⟩ := h
  have hnodup : (es.map Prod.fst).Nodup := horder.imp fun h => ne_of_lt h
  have heq := List.inj_on_of_nodup_map hnodup ((hmem p x).mpr hx) ((hmem p y).mpr hy) rfl
  exact (Prod.mk.inj heq).2

theorem append (hx : Lists P xs) (hy : Lists Q ys)
    (hlt : ∀ p x q y, P p x → Q q y → p < q) : Lists (fun p x => P p x ∨ Q p x) (xs ++ ys) := by
  obtain ⟨es, rfl, hes, hmem⟩ := hx
  obtain ⟨fs, rfl, hfs, hmem'⟩ := hy
  refine ⟨es ++ fs, List.map_append, ?_, ?_⟩
  · rw [List.map_append, List.pairwise_append]
    refine ⟨hes, hfs, ?_⟩
    intro p hp q hq
    obtain ⟨⟨p, x⟩, he, rfl⟩ := List.mem_map.mp hp
    obtain ⟨⟨q, y⟩, hf, rfl⟩ := List.mem_map.mp hq
    exact hlt p x q y ((hmem p x).mp he) ((hmem' q y).mp hf)
  · intro p x
    rw [List.mem_append, hmem, hmem']

/-- What stands below a child, seen from the node above. -/
theorem below (h : Lists P xs) (i : Nat) : Lists (fun p x => ∃ q, p = i :: q ∧ P q x) xs := by
  obtain ⟨es, rfl, horder, hmem⟩ := h
  refine ⟨es.map fun e => (i :: e.1, e.2), ?_, ?_, ?_⟩
  · rw [List.map_map]
    rfl
  · rw [List.pairwise_map] at horder
    rw [List.map_map, List.pairwise_map]
    refine horder.imp ?_
    intro e f hef
    exact List.cons_lt_cons_iff.mpr (Or.inr ⟨rfl, hef⟩)
  · intro p x
    rw [List.mem_map]
    constructor
    · rintro ⟨⟨q, y⟩, he, heq⟩
      obtain ⟨rfl, rfl⟩ := Prod.mk.inj heq
      exact ⟨q, rfl, (hmem q y).mp he⟩
    · rintro ⟨q, rfl, hq⟩
      exact ⟨(q, x), (hmem q x).mpr hq, rfl⟩

/-- The children are counted from `k` on, so that the rest of them can be counted on. -/
private theorem flatMap_from {f : α → List β} {P : α → Position → β → Prop} (k : Nat) {as : List α}
    (h : ∀ a ∈ as, Lists (P a) (f a)) :
    Lists (fun p x => ∃ i q a, p = (k + i) :: q ∧ as[i]? = some a ∧ P a q x) (as.flatMap f) := by
  induction as generalizing k with
  | nil =>
    apply nil
    rintro p x ⟨i, q, a, -, ha, -⟩
    cases ha
  | cons a as ih =>
    have hfirst := (h a List.mem_cons_self).below k
    have hrest := ih (k + 1) fun b hb => h b (List.mem_cons_of_mem a hb)
    rw [List.flatMap_cons]
    refine (hfirst.append hrest ?_).congr ?_
    · rintro p x q y ⟨p, rfl, -⟩ ⟨i, q, b, rfl, -, -⟩
      have hk : k < k + 1 + i := by omega
      exact List.cons_lt_cons_iff.mpr (Or.inl hk)
    · intro p x
      constructor
      · rintro (⟨q, rfl, hq⟩ | ⟨i, q, b, rfl, hb, hq⟩)
        · exact ⟨0, q, a, rfl, rfl, hq⟩
        · refine ⟨i + 1, q, b, ?_, hb, hq⟩
          rw [Nat.add_right_comm, Nat.add_assoc]
      · rintro ⟨i, q, b, rfl, hb, hq⟩
        cases i with
        | zero =>
          obtain rfl : a = b := Option.some.inj hb
          exact Or.inl ⟨q, rfl, hq⟩
        | succ i =>
          refine Or.inr ⟨i, q, b, ?_, hb, hq⟩
          rw [Nat.add_right_comm, Nat.add_assoc]

/-- What stands below each of some children makes up what stands below all of them. -/
theorem flatMap {f : α → List β} {P : α → Position → β → Prop} {as : List α}
    (h : ∀ a ∈ as, Lists (P a) (f a)) :
    Lists (fun p x => ∃ i q a, p = i :: q ∧ as[i]? = some a ∧ P a q x) (as.flatMap f) := by
  have hfrom := flatMap_from 0 h
  simp only [Nat.zero_add] at hfrom
  exact hfrom

end Lists

end CodeManifest
