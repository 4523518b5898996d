import CodeManifest.Text
import Mathlib.Tactic.Common

namespace CodeManifest

variable {ε α β σ γ : Type}

/-- Where two steps end well, so did the first. -/
theorem exists_of_bind_eq_ok {x : Except ε α} {f : α → Except ε β} {b : β} (h : x >>= f = .ok b) :
    ∃ a, x = .ok a ∧ f a = .ok b := by
  cases x with
  | error e => cases h
  | ok a => exact ⟨a, rfl, h⟩

/-- Where two steps fail, one of them does. -/
theorem error_of_bind_eq_error {x : Except ε α} {f : α → Except ε β} {e : ε} (h : x >>= f = .error e) :
    x = .error e ∨ ∃ a, x = .ok a ∧ f a = .error e := by
  cases x with
  | error e' =>
    cases h
    exact Or.inl rfl
  | ok a => exact Or.inr ⟨a, rfl, h⟩

theorem exists_of_map_eq_ok {x : Except ε α} {f : α → β} {b : β} (h : x.map f = .ok b) :
    ∃ a, x = .ok a ∧ f a = b := by
  cases x with
  | error e => cases h
  | ok a => exact ⟨a, rfl, Except.ok.inj h⟩

/-- A last step that cannot fail makes no difference. -/
theorem exists_bind_pure {x : Except ε α} {f : α → β} :
    (∃ b, (x >>= fun a => pure (f a)) = .ok b) ↔ ∃ a, x = .ok a := by
  cases x with
  | error e =>
    constructor
    · rintro ⟨b, h⟩
      cases h
    · rintro ⟨a, h⟩
      cases h
  | ok a => exact ⟨fun _ => ⟨a, rfl⟩, fun _ => ⟨f a, rfl⟩⟩

/-- Where it shows in each item by itself whether its step ends well, the items show it of the run. -/
theorem exists_foldlM_iff {f : σ → α → Except ε σ} {good : α → Prop}
    (hf : ∀ s a, (∃ s', f s a = .ok s') ↔ good a) {s : σ} {as : List α} :
    (∃ s', as.foldlM f s = .ok s') ↔ ∀ a ∈ as, good a := by
  induction as generalizing s with
  | nil => exact ⟨fun _ a ha => absurd ha List.not_mem_nil, fun _ => ⟨s, rfl⟩⟩
  | cons a as ih =>
    rw [List.foldlM_cons, List.forall_mem_cons, ← hf s a]
    constructor
    · rintro ⟨r, h⟩
      obtain ⟨s₁, hs, hrest⟩ := exists_of_bind_eq_ok h
      exact ⟨⟨s₁, hs⟩, ih.mp ⟨r, hrest⟩⟩
    · rintro ⟨⟨s₁, hs⟩, has⟩
      obtain ⟨r, hr⟩ := (ih (s := s₁)).mpr has
      exact ⟨r, by rw [hs]; exact hr⟩

theorem foldlM_keeps {f : σ → α → Except ε σ} {g : σ → γ}
    (hf : ∀ s a s', f s a = .ok s' → g s' = g s) {s s' : σ} {as : List α}
    (h : as.foldlM f s = .ok s') : g s' = g s := by
  induction as generalizing s with
  | nil =>
    cases h
    rfl
  | cons a as ih =>
    rw [List.foldlM_cons] at h
    obtain ⟨s₁, hs, hrest⟩ := exists_of_bind_eq_ok h
    exact (ih hrest).trans (hf s a s₁ hs)

end CodeManifest
