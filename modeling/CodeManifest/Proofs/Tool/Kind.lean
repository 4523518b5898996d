import CodeManifest.Proofs.Tool.Qualifier

namespace CodeManifest.Tool

open TypeText

namespace TypeInfo

/-- The kinds that stand for more than one type. -/
def portable : List Text := ["string", "number", "boolean", "object", "array", "null", "promise", "any"]

theorem portable_of_builtIn {t k : Text} (h : builtIn.lookup t = some k) : k ∈ portable := by
  have hall : ∀ e ∈ builtIn, e.2 ∈ portable := by decide
  obtain ⟨before, after, hsplit, -⟩ := List.lookup_eq_some_iff.mp h
  exact hall (t, k) (by simp [hsplit])

/-- A union of string literals is a choice between its values. Of any other type there is a kind, and perhaps a
description, or nothing but its own text. -/
theorem ofClean_cases (t : Text) :
    (isUnion t = true ∧
      ofClean t = ⟨"string", some ("One of: ".toList ++ Text.join ", " (literals t)), some (literals t)⟩) ∨
    (∃ k ∈ portable, ∃ description, ofClean t = ⟨k, description, none⟩) ∨ ofClean t = ⟨t, none, none⟩ := by
  have harray : "array".toList ∈ portable := by decide
  have hpromise : "promise".toList ∈ portable := by decide
  have hobject : "object".toList ∈ portable := by decide
  unfold ofClean
  split
  · next hunion => exact .inl ⟨hunion, rfl⟩
  · refine .inr ?_
    split
    · exact .inl ⟨_, harray, _, rfl⟩
    · split
      · exact .inl ⟨_, hpromise, _, rfl⟩
      · split
        · exact .inl ⟨_, hobject, _, rfl⟩
        · split
          · next k hk => exact .inl ⟨k, portable_of_builtIn hk, _, rfl⟩
          · exact .inr rfl

theorem ofText_of_clean {t : Text} (h : clean t ≠ []) : ofText (some t) = ofClean (clean t) := by
  have hne : (clean t).isEmpty = false := by simpa using h
  simp [ofText, hne]

theorem ofText_congr {s t : Text} (h : clean s = clean t) : ofText (some s) = ofText (some t) := by
  unfold ofText
  simp only [h]

theorem ofText_cases (t : Option Text) :
    (ofText t).kind ∈ portable ∨ ∃ s, t = some s ∧ clean s ≠ [] ∧ ofText t = ⟨clean s, none, none⟩ := by
  have hany : "any".toList ∈ portable := by decide
  have hstring : "string".toList ∈ portable := by decide
  cases t with
  | none => exact .inl hany
  | some s =>
    by_cases hne : clean s = []
    · refine .inl ?_
      simpa [ofText, hne] using hany
    · rw [ofText_of_clean hne]
      rcases ofClean_cases (clean s) with ⟨-, hinfo⟩ | ⟨k, hk, description, hinfo⟩ | hinfo
      · exact .inl (by rw [hinfo]; exact hstring)
      · exact .inl (by rw [hinfo]; exact hk)
      · exact .inr ⟨s, rfl, hne, hinfo⟩

/-- A kind has no blanks around it. -/
theorem isTight_kind (t : Option Text) : (ofText t).kind.IsTight := by
  have hall : ∀ k ∈ portable, k.IsTight := by decide
  rcases ofText_cases t with hkind | ⟨s, -, hne, hinfo⟩
  · exact hall _ hkind
  · rw [hinfo]
    exact Text.isTight_trim hne

theorem ofClean_portable {k : Text} (h : k ∈ portable) : ofClean k = ⟨k, none, none⟩ := by
  have hunion : ∀ k ∈ portable, isUnion k = false := by
    simp only [portable, List.forall_mem_cons]
    refine ⟨?_, ?_, ?_, ?_, ?_, ?_, ?_, ?_, List.forall_mem_nil _⟩ <;>
      exact isUnion_eq_false rfl (by decide) (by decide) (by decide)
  have hrest : ∀ k ∈ portable, element? k = none ∧ between? "Promise<" ">" k = none ∧
      (k.contains '{' && k.contains '}') = false ∧ (builtIn.lookup k).getD k = k := by decide
  obtain ⟨helement, hpromise, hbraces, hname⟩ := hrest k h
  rw [ofClean, if_neg (Bool.eq_false_iff.mp (hunion k h))]
  simp only [helement, hpromise, hbraces]
  cases hk : builtIn.lookup k with
  | none => rfl
  | some name =>
    obtain rfl : name = k := by simpa [hk] using hname
    simp

theorem ofText_portable {k : Text} (h : k ∈ portable) : ofText (some k) = ⟨k, none, none⟩ := by
  have hall : ∀ k ∈ portable, Text.occursIn "import(" k = false ∧ Text.trim k = k ∧ k.isEmpty = false := by decide
  obtain ⟨himport, htrim, hne⟩ := hall k h
  simp only [ofText, clean_eq_self himport htrim, hne, ofClean_portable h]
  rfl

end TypeInfo

/-- A kind has no blanks around it, and is one of a few or the clean text of the type, of which nothing else is
said then. Blanks around the text make no difference, and a kind is read as itself unless an import
stands in it. -/
theorem kinds_closed (t : Option Text) :
    (TypeInfo.ofText t).kind.IsTight ∧
    ((TypeInfo.ofText t).kind ∈ TypeInfo.portable ∨
      ∃ s, t = some s ∧ TypeInfo.ofText t = ⟨clean s, none, none⟩) ∧
    (∀ s before after : Text, t = some s → (∀ c ∈ before, Text.isBlank c = true) →
      (∀ c ∈ after, Text.isBlank c = true) → TypeInfo.ofText (some (before ++ s ++ after)) = TypeInfo.ofText t) ∧
    (Text.occursIn "import(" (TypeInfo.ofText t).kind = false →
      TypeInfo.ofText (some (TypeInfo.ofText t).kind) = ⟨(TypeInfo.ofText t).kind, none, none⟩) := by
  refine ⟨TypeInfo.isTight_kind t, ?_, ?_, fun himport => ?_⟩
  · exact (TypeInfo.ofText_cases t).imp_right fun ⟨s, ht, _, hinfo⟩ => ⟨s, ht, hinfo⟩
  · rintro s before after rfl hbefore hafter
    exact TypeInfo.ofText_congr (clean_blank hbefore hafter s)
  · rcases TypeInfo.ofText_cases t with hkind | ⟨s, rfl, -, hinfo⟩
    · exact TypeInfo.ofText_portable hkind
    · rw [hinfo] at himport ⊢
      have hagain : clean (clean s) = clean s := clean_eq_self himport (Text.trim_trim _)
      exact (TypeInfo.ofText_congr hagain).trans hinfo

end CodeManifest.Tool
