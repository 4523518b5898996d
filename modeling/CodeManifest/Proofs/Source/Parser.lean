import CodeManifest.Proofs.Keyed
import CodeManifest.Source.Parser

namespace CodeManifest.Source

namespace Language

theorem ofName?_name (l : Language) : ofName? l.name = some l := by cases l <;> decide

theorem name_of_ofName? {name : Text} {l : Language} (h : ofName? name = some l) : l.name = name := by
  simpa using List.find?_some h

end Language

namespace Parsers

/-- The grammar that a report says is loaded. -/
def load? (r : Log.Record) : Option Text :=
  if r.source = (loading []).source then Text.dropStart? loadOpening r.text else none

theorem load?_loading (name : Text) : load? (loading name) = some name := by
  have hsource : (loading name).source = (loading []).source := rfl
  rw [load?, if_pos hsource, Text.dropStart?_eq_some_iff]
  rfl

variable {ps : Parsers} {name : Text}

/-- A parser that is kept reads by the grammar of its name. -/
theorem grammar_of_mem {e : Text × Parser} (h : e ∈ ps.entries) : Language.ofName? e.1 = some e.2.grammar := by
  rw [ps.named e h, Language.ofName?_name]

/-- An answer is a parser that is kept, a grammar that is loaded, or that there is none of this name. -/
theorem parserFor_cases (ps : Parsers) (name : Text) :
    (∃ p, ps.entries.get? name = some p ∧ Language.ofName? name = some p.grammar ∧
      ps.parserFor name = { parsers := ps, outcome := .ok p }) ∨
    (∃ l, ps.entries.get? name = none ∧ Language.ofName? name = some l ∧
      ps.parserFor name = {
        parsers := ps.add ⟨l⟩, records := [loading name], outcome := .ok ⟨l⟩ }) ∨
    Language.ofName? name = none ∧
      ps.parserFor name = { parsers := ps, outcome := .error (Language.unknown name) } := by
  unfold parserFor
  cases hget : ps.entries.get? name with
  | some p => exact Or.inl ⟨p, rfl, grammar_of_mem (Keyed.mem_of_get? hget), rfl⟩
  | none =>
    cases hlanguage : Language.ofName? name with
    | some l => exact Or.inr (Or.inl ⟨l, rfl, rfl, rfl⟩)
    | none => exact Or.inr (Or.inr ⟨rfl, rfl⟩)

/-- What was asked for before makes no difference to the parser. -/
theorem outcome_parserFor (ps : Parsers) (name : Text) :
    (ps.parserFor name).outcome =
      match Language.ofName? name with
      | some l => .ok ⟨l⟩
      | none => .error (Language.unknown name) := by
  rcases ps.parserFor_cases name with ⟨p, -, hlanguage, h⟩ | ⟨l, -, hlanguage, h⟩ | ⟨hlanguage, h⟩
  all_goals rw [h, hlanguage]

/-- A grammar is loaded, and its parser kept, where it was not there. -/
theorem keys_parserFor (ps : Parsers) (name : Text) :
    (ps.parserFor name).parsers.entries.keys = ps.entries.keys ++ (ps.parserFor name).records.filterMap load? := by
  rcases ps.parserFor_cases name with ⟨p, -, -, h⟩ | ⟨l, hget, hlanguage, h⟩ | ⟨-, h⟩
  · rw [h]
    simp
  · have hnew : name ∉ ps.entries.keys := by
      intro hmem
      obtain ⟨e, he, rfl⟩ := List.mem_map.mp hmem
      rw [Keyed.get?_of_mem ps.distinct he] at hget
      cases hget
    rw [h]
    change (ps.entries.put l.name _).keys = ps.entries.keys ++ [loading name].filterMap load?
    rw [List.filterMap_cons_some (load?_loading name), List.filterMap_nil, Language.name_of_ofName? hlanguage, Keyed.keys_put, if_neg hnew]
  · rw [h]
    simp

/-- All that is reported is that the grammar is loaded. -/
theorem eq_loading_of_mem {r : Log.Record} (h : r ∈ (ps.parserFor name).records) : r = loading name := by
  rcases ps.parserFor_cases name with ⟨p, -, -, hanswer⟩ | ⟨l, -, -, hanswer⟩ | ⟨-, hanswer⟩
  · rw [hanswer] at h
    cases h
  · rw [hanswer] at h
    exact List.mem_singleton.mp h
  · rw [hanswer] at h
    cases h

/-- A name that no grammar has changes nothing, and nothing is loaded. -/
theorem parserFor_of_error {f : Fault} (h : (ps.parserFor name).outcome = .error f) :
    (ps.parserFor name).parsers = ps ∧ (ps.parserFor name).records = [] := by
  rcases ps.parserFor_cases name with ⟨p, -, -, hanswer⟩ | ⟨l, -, -, hanswer⟩ | ⟨-, hanswer⟩
  · rw [hanswer] at h
    cases h
  · rw [hanswer] at h
    cases h
  · rw [hanswer]
    exact ⟨rfl, rfl⟩

end Parsers

end CodeManifest.Source
