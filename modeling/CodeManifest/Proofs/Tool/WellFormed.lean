import CodeManifest.Proofs.Keyed
import CodeManifest.Proofs.Text.Blank
import CodeManifest.Proofs.Tool.LiteralUnion
import CodeManifest.Proofs.Tool.Offer
import Mathlib

namespace CodeManifest.Tool

open Files Source

/-- A choice between texts is a string type, and its description lists them. -/
structure IsChoice (type : Text) (description : Option Text) (values : List Text) : Prop where
  type_eq : type = "string"
  ne_nil : values ≠ []
  ne_nil_of_mem : ∀ v ∈ values, v ≠ []
  description_eq : description = some ("One of: ".toList ++ Text.join ", " values)

structure TypeInfo.WellFormed (t : TypeInfo) : Prop where
  kind : t.kind.IsTight
  values : ∀ vs, t.values = some vs → IsChoice t.kind t.description vs

theorem TypeInfo.wellFormed_ofText (t : Option Text) : (ofText t).WellFormed := by
  refine ⟨isTight_kind t, ?_⟩
  intro vs hvs
  obtain ⟨u, -, hinfo, rfl⟩ := exists_of_values hvs
  rw [hinfo]
  exact ⟨rfl, u.values_ne_nil, fun v hv => u.ne_nil_of_mem_values hv, rfl⟩

structure Parameter.WellFormed (p : Parameter) : Prop where
  type : p.type.IsTight
  values : ∀ vs, p.values = some vs → IsChoice p.type p.description vs

theorem wellFormed_of_mem_parametersOf {ps : List Source.Parameter} {e : Text × Parameter}
    (h : e ∈ parametersOf ps) : e.2.WellFormed := by
  obtain ⟨p, -, rfl⟩ := List.mem_map.mp (Keyed.mem_of_mem_ofList h)
  have hp := TypeInfo.wellFormed_ofText p.type
  exact ⟨hp.kind, hp.values⟩

/-- Every sentence begins with a letter. -/
theorem Verb.sentence_eq_cons (subject : Text) (byId : Bool) (v : Verb) :
    ∃ c t, v.sentence subject byId = c :: t ∧ Text.isBlank c = false := by
  cases v with
  | fetch => cases byId <;> exact ⟨'F', _, rfl, rfl⟩
  | create => exact ⟨'C', _, rfl, rfl⟩
  | update => exact ⟨'U', _, rfl, rfl⟩
  | delete => exact ⟨'D', _, rfl, rfl⟩
  | list => exact ⟨'L', _, rfl, rfl⟩
  | search => exact ⟨'S', _, rfl, rfl⟩
  | validate => exact ⟨'V', _, rfl, rfl⟩
  | authenticate => exact ⟨'A', _, rfl, rfl⟩

theorem describe_ne_nil (name : Text) (parameters : ParameterCount) (byId : Bool) :
    describe name parameters byId ≠ [] := by
  unfold describe
  split
  next v rest _ =>
    obtain ⟨c, t, hs, hc⟩ := v.sentence_eq_cons (subject rest) byId
    have hmem : c ∈ v.sentence (subject rest) byId := by
      rw [hs]
      exact List.mem_cons_self
    exact Text.spaced_ne_nil hmem hc
  next => exact List.cons_ne_nil 'F' _

/-- All texts under the tags are trimmed. -/
def AllTrimmed (tags : Keyed Text (List Text)) : Prop :=
  ∀ name ts, tags.get? name = some ts → ∀ t ∈ ts, Text.trim t = t

theorem AllTrimmed.addTag {tags : Keyed Text (List Text)} (h : AllTrimmed tags) (name : Text)
    (lines : List Text) : AllTrimmed (DocComment.addTag tags name (DocComment.body lines)) := by
  intro other ts hts t ht
  unfold DocComment.addTag at hts
  by_cases hname : other = name
  · subst hname
    rw [Keyed.lookup_put_self] at hts
    cases hts
    rcases List.mem_append.mp ht with ht | ht
    · cases hold : tags.get? other with
      | none =>
        rw [hold] at ht
        cases ht
      | some old =>
        rw [hold] at ht
        exact h other old hold t ht
    · rw [List.mem_singleton.mp ht]
      exact Text.trim_trim _
  · rw [Keyed.lookup_put_of_ne hname] at hts
    exact h other ts hts t ht

/-- Tags that are read from sections only get trimmed texts. -/
theorem AllTrimmed.foldl {tags : Keyed Text (List Text)} (h : AllTrimmed tags)
    (parts : List DocComment.Section) :
    AllTrimmed (parts.foldl (fun tags s => match s.1 with
      | some name => DocComment.addTag tags name (DocComment.body s.2)
      | none => tags) tags) := by
  -- The sections are taken up one by one, so the tags so far vary.
  induction parts generalizing tags with
  | nil => exact h
  | cons s parts ih =>
    obtain ⟨tag, lines⟩ := s
    cases tag with
    | none => exact ih h
    | some name => exact ih (h.addTag name lines)

theorem examples_of_parse {t : Text} {c : DocComment} (h : DocComment.parse t = some c) :
    AllTrimmed c.tags ∧
      c.examples = ((c.tags.get? "example".toList).getD []).filter (! ·.isEmpty) := by
  have hnil : AllTrimmed [] := by
    intro name ts hts
    cases hts
  unfold DocComment.parse at h
  dsimp only at h
  split at h
  · cases h
  · obtain rfl := Option.some.inj h
    exact ⟨hnil.foldl _, rfl⟩

theorem isTight_of_mem_examples {t : Text} {c : DocComment} (h : DocComment.parse t = some c)
    {e : Text} (he : e ∈ c.examples) : e.IsTight := by
  obtain ⟨htags, hexamples⟩ := examples_of_parse h
  rw [hexamples] at he
  obtain ⟨hmem, hne⟩ := List.mem_filter.mp he
  refine ⟨by simpa using hne, ?_⟩
  cases hts : c.tags.get? "example".toList with
  | none =>
    rw [hts] at hmem
    cases hmem
  | some ts =>
    rw [hts] at hmem
    exact htags _ ts hts e hmem

/-- The documentation of a symbol in a tree is what some comment says. -/
theorem parse_of_mem_candidates {tree : Node} {x : Symbol} (hx : x ∈ tree.symbols.candidates)
    {c : DocComment} (hc : x.doc = some c) : ∃ t, DocComment.parse t = some c := by
  obtain ⟨kind, f, name, isExported, before, className, rfl⟩ :=
    Node.isSymbolOf_of_mem_candidates hx
  have hdoc : Node.documentation before = some c := hc
  unfold Node.documentation at hdoc
  split at hdoc
  · split at hdoc
    · exact ⟨_, hdoc⟩
    · cases hdoc
  · cases hdoc

/-- A tool as a manifest expects it. -/
structure Descriptor.WellFormed (t : Descriptor) : Prop where
  name_ne_nil : t.name ≠ []
  isEligible : isEligible t.name t.sourceFile = true
  description_ne_nil : t.description ≠ []
  category_mem : t.category ∈ Category.all.map Category.name
  returnType : t.returnType.IsTight
  parameters : ∀ p ∈ t.parameters, p.2.WellFormed
  examples : ∀ e ∈ t.examples, e.IsTight

theorem wellFormed_ofSymbol {name path : Text} {x : Symbol} (hname : name ≠ [])
    (heligible : Rejection.of? name path = none)
    (hdoc : ∀ c, x.doc = some c → ∃ t, DocComment.parse t = some c) :
    (Descriptor.ofSymbol name x path).WellFormed where
  name_ne_nil := hname
  isEligible := by
    have h : isEligible name path = true := by rw [Tool.isEligible, heligible]; rfl
    exact h
  description_ne_nil := by
    dsimp only [Descriptor.ofSymbol]
    split
    next => exact describe_ne_nil _ _ _
    next h => simpa using h
  category_mem := List.mem_map_of_mem (Category.mem_all _)
  returnType := (TypeInfo.wellFormed_ofText _).kind
  parameters _ hp := wellFormed_of_mem_parametersOf hp
  examples e he := by
    cases hc : x.doc with
    | none =>
      rw [Descriptor.ofSymbol, hc] at he
      cases he
    | some c =>
      obtain ⟨t, ht⟩ := hdoc c hc
      rw [Descriptor.ofSymbol, hc] at he
      exact isTight_of_mem_examples ht he

/-- What a symbol of a tree offers is well formed. -/
theorem Offers.wellFormed {tree : Node} {path n : Text} {x : Symbol} {t : Descriptor}
    (h : Offers .standard path x n t) (hx : x ∈ tree.symbols.candidates) : t.WellFormed := by
  obtain rfl : Descriptor.ofSymbol n x path = t := Except.ok.inj h.built
  exact wellFormed_ofSymbol h.ne_nil h.eligible fun c hc => parse_of_mem_candidates hx hc

theorem wellFormed_of_mem_select {tree : Node} {path : Text} {taken : List (Text × Text)}
    {t : Descriptor} (ht : t ∈ select .standard path taken tree.symbols.candidates) :
    t.WellFormed := by
  rw [select_eq_fresh] at ht
  obtain ⟨x, hx, ho⟩ := List.mem_filterMap.mp (mem_of_mem_fresh ht)
  obtain ⟨n, ho⟩ := offer?_eq_some_iff.mp ho
  exact ho.wellFormed hx

/-- Each tool that a scan finds is well formed, whatever the files hold; so is each that is made of the symbols
of any tree at all. -/
theorem scan_wellFormed :
    (∀ (d : Disk) (s : Scanner), s.builder = .standard →
      ∀ files, ∀ t ∈ (scan d s files).tools, t.WellFormed) ∧
    ∀ (tree : Node) path taken, ∀ t ∈ select .standard path taken tree.symbols.candidates,
      t.WellFormed := by
  refine ⟨?_, ?_⟩
  · intro d s hs files t ht
    rw [scan_tools] at ht
    obtain ⟨⟨path, x⟩, hx, ho⟩ := List.mem_filterMap.mp (mem_of_mem_fresh ht)
    obtain ⟨n, ho⟩ := offer?_eq_some_iff.mp ho
    obtain ⟨file, -, symbols, hp, hx⟩ := mem_candidates.mp hx
    obtain ⟨-, l, text, -, rfl⟩ := Scanner.eq_of_parsed hp
    rw [hs] at ho
    exact ho.wellFormed hx
  · intro tree path taken t ht
    exact wellFormed_of_mem_select ht

/-- The text of a file with a function that takes one of two words. -/
def choiceText : Text := "export function paint(c: 'red' | 'blue') \x7b\x7d"

private theorem choiceText_utf8 : Text.ofUtf8 (Text.toUtf8 choiceText).toList = choiceText := by
  decide +kernel

/-- The tool that the function makes. -/
def choice : Descriptor where
  name := "paint"
  description := "Function: paint (1 parameters)"
  parameters := [("c", {
    type := "string"
    description := some "One of: red, blue".toList
    values := some ["red", "blue"] })]
  sourceFile := "a.ts"

private theorem offers_choiceText : (Node.ofText .typescript choiceText).symbols.candidates.filterMap
      (offer? .standard "a.ts") = [choice] := by
  decide +kernel

theorem scan_wellFormed_choice :
    let d : Disk := { root := .directory [("a.ts", .file (Text.toUtf8 choiceText) 0)] }
    let s : Scanner := { root := ⟨['/'], []⟩ }
    (scan d s ["a.ts"]).tools = [choice] ∧ choice.WellFormed := by
  intro d s
  have hparsed : s.parsed d "a.ts" =
      .ok ("a.ts".toList, (Node.ofText .typescript choiceText).symbols) := by
    have hname : d.nameWithin s.root (.ofText "a.ts") = .ok "a.ts".toList := by cbv
    have hread : d.read (s.root.join (.ofText "a.ts")) = .ok (Text.toUtf8 choiceText, 0) := by cbv
    have hlanguage : Language.ofPath? (s.root.join (.ofText "a.ts")) = some .typescript := by cbv
    have hsource : Scanner.source d (s.root.join (.ofText "a.ts")) =
        .ok (.typescript, choiceText) := by
      unfold Scanner.source
      rw [hlanguage, hread]
      simp only [choiceText_utf8]
    rw [Scanner.parsed, hname, hsource]
    rfl
  have hscan : (scan d s ["a.ts"]).tools = [choice] := by
    rw [scan_tools, offers_singleton_ok hparsed, offers_choiceText]
    rfl
  refine ⟨hscan, scan_wellFormed.1 d s rfl ["a.ts"] choice ?_⟩
  rw [hscan]
  exact List.mem_singleton_self choice

end CodeManifest.Tool
