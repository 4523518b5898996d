import CodeManifest.Proofs.Text.Case
import CodeManifest.Proofs.Text.Spaced
import CodeManifest.Tool.Category
import Mathlib

namespace CodeManifest

namespace Tool

namespace Verb

variable {v w : Verb} {name rest rest' : Text}

/-- The word that begins with another one, which is tried before it. -/
def covered : Text := "getall"

/-- The name begins with a word of the verb, which is not the covered one. -/
def Leads (v : Verb) (name rest : Text) : Prop :=
  ∃ word ∈ v.openings, word ≠ covered ∧ Text.dropFolded? word name = some rest

theorem small_openings (v : Verb) : ∀ word ∈ v.openings, ∀ c ∈ word, 'a' ≤ c ∧ c ≤ 'z' := by
  have hall : v.openings.all Text.isSmall = true := by cases v <;> decide
  intro word hword
  exact Text.isSmall_iff.mp (List.all_eq_true.mp hall word hword)

theorem openings_apart (v w : Verb) : ∀ word ∈ v.openings, ∀ other ∈ w.openings, word ≠ covered → other ≠ covered →
    word <+: other → v = w ∧ word = other := by
  cases v <;> cases w <;> decide

theorem mem_openings_covered (h : covered ∈ v.openings) : v = list := by
  revert h
  cases v <;> decide

theorem isPrefix_of_dropFolded? {word : Text} (hword : word ∈ v.openings)
    (h : Text.dropFolded? word name = some rest) : word <+: name.map Text.caseless := by
  obtain ⟨s, rfl, rfl⟩ := (Text.dropFolded?_eq_some_iff (v.small_openings word hword)).mp h
  rw [List.map_append]
  exact List.prefix_append _ _

/-- A name is led by one verb only. -/
theorem Leads.unique (hv : v.Leads name rest) (hw : w.Leads name rest') : v = w ∧ rest = rest' := by
  obtain ⟨word, hword, hfree, hdrop⟩ := hv
  obtain ⟨other, hother, hfree', hdrop'⟩ := hw
  have hsame : v = w ∧ word = other := by
    rcases List.prefix_or_prefix_of_prefix (isPrefix_of_dropFolded? hword hdrop)
      (isPrefix_of_dropFolded? hother hdrop') with hle | hle
    · exact openings_apart v w word hword other hother hfree hfree' hle
    · obtain ⟨hvw, hwords⟩ := openings_apart w v other hother word hword hfree' hfree hle
      exact ⟨hvw.symm, hwords.symm⟩
  obtain ⟨rfl, rfl⟩ := hsame
  exact ⟨rfl, Option.some.inj (hdrop.symm.trans hdrop')⟩

/-- A name with the covered word begins with the word that covers it. -/
theorem leads_fetch_of_covered (h : Text.dropFolded? covered name = some rest) :
    ∃ more, fetch.Leads name more := by
  have hsmall : ∀ c ∈ covered, 'a' ≤ c ∧ c ≤ 'z' := small_openings list covered (by decide)
  have hget : ∀ c ∈ "get".toList, 'a' ≤ c ∧ c ≤ 'z' := small_openings fetch "get" (by decide)
  obtain ⟨s, rfl, hs⟩ := (Text.dropFolded?_eq_some_iff hsmall).mp h
  refine ⟨s.drop 3 ++ rest, "get", by decide, by decide, (Text.dropFolded?_eq_some_iff hget).mpr ⟨s.take 3, ?_, ?_⟩⟩
  · rw [← List.append_assoc, List.take_append_drop]
  · rw [List.map_take, hs]
    rfl

theorem leads_of_after? (h : v.after? name = some rest) :
    v.Leads name rest ∨ v = list ∧ ∃ more, fetch.Leads name more := by
  obtain ⟨word, hword, hdrop⟩ := List.exists_of_findSome?_eq_some h
  by_cases hfree : word = covered
  · subst hfree
    exact .inr ⟨mem_openings_covered hword, leads_fetch_of_covered hdrop⟩
  · exact .inl ⟨word, hword, hfree, hdrop⟩

theorem Leads.after?_eq (h : v.Leads name rest) : v.after? name = some rest := by
  have hsome : (v.after? name).isSome = true := by
    obtain ⟨word, hword, -, hdrop⟩ := h
    exact List.findSome?_isSome_iff.mpr ⟨word, hword, by rw [hdrop]; rfl⟩
  obtain ⟨found, hfound⟩ := Option.isSome_iff_exists.mp hsome
  rcases leads_of_after? hfound with hleads | ⟨rfl, more, hmore⟩
  · rw [hfound, (hleads.unique h).2]
  · cases (hmore.unique h).1

theorem Leads.opens (h : v.Leads name rest) : v.opens name = true := by
  rw [Verb.opens, h.after?_eq]
  rfl

theorem Leads.append (h : v.Leads name rest) (t : Text) : v.Leads (name ++ t) (rest ++ t) := by
  obtain ⟨word, hword, hfree, hdrop⟩ := h
  have hsmall := v.small_openings word hword
  obtain ⟨s, rfl, hs⟩ := (Text.dropFolded?_eq_some_iff hsmall).mp hdrop
  exact ⟨word, hword, hfree, (Text.dropFolded?_eq_some_iff hsmall).mpr ⟨s, List.append_assoc _ _ _, hs⟩⟩

/-- The rules of sentences read a name by the verb that leads it. -/
theorem find?_described_eq_some_iff :
    find? described name = some (v, rest) ↔ v ≠ authenticate ∧ v.Leads name rest := by
  have hforth {v : Verb} {rest : Text} (h : find? described name = some (v, rest)) :
      v ≠ authenticate ∧ v.Leads name rest := by
    obtain ⟨before, found, after, hsplit, hfound, hbefore⟩ := List.findSome?_eq_some_iff.mp h
    obtain ⟨more, hafter, heq⟩ := Option.map_eq_some_iff.mp hfound
    obtain ⟨rfl, rfl⟩ := Prod.mk.inj heq
    have hmem : found ∈ described := by simp [hsplit]
    refine ⟨fun hv => absurd (hv ▸ hmem) (by decide), ?_⟩
    rcases leads_of_after? hafter with hleads | ⟨rfl, other, hother⟩
    · exact hleads
    · -- `fetch` is tried first, so it would have been found
      cases before with
      | nil => cases hsplit
      | cons first before =>
        obtain rfl : fetch = first := (List.cons.inj hsplit).1
        have hnone := hbefore fetch List.mem_cons_self
        rw [hother.after?_eq] at hnone
        cases hnone
  refine ⟨hforth, ?_⟩
  rintro ⟨hv, hleads⟩
  have hmem : v ∈ described := by
    revert hv
    cases v <;> decide
  have hsome : (find? described name).isSome = true :=
    List.findSome?_isSome_iff.mpr ⟨v, hmem, by rw [hleads.after?_eq]; rfl⟩
  obtain ⟨⟨w, found⟩, hfound⟩ := Option.isSome_iff_exists.mp hsome
  obtain ⟨rfl, rfl⟩ := (hforth hfound).2.unique hleads
  exact hfound

/-- The rules of categories do so as well, and name a category. -/
theorem find?_byVerb_eq_some_iff {e : Verb × Category} :
    Category.byVerb.find? (fun e => e.1.opens name) = some e ↔ e ∈ Category.byVerb ∧ ∃ rest, e.1.Leads name rest := by
  have hforth {e : Verb × Category} (h : Category.byVerb.find? (fun e => e.1.opens name) = some e) :
      e ∈ Category.byVerb ∧ ∃ rest, e.1.Leads name rest := by
    have hmem := List.mem_of_find?_eq_some h
    have hopens : e.1.opens name = true := List.find?_some (p := fun e : Verb × Category => e.1.opens name) h
    have hlist : ∀ e ∈ Category.byVerb, e.1 ≠ list := by decide
    obtain ⟨rest, hrest⟩ := Option.isSome_iff_exists.mp hopens
    rcases leads_of_after? hrest with hleads | ⟨hv, -⟩
    · exact ⟨hmem, rest, hleads⟩
    · exact absurd hv (hlist e hmem)
  refine ⟨hforth, ?_⟩
  rintro ⟨hmem, rest, hleads⟩
  have hsome : (Category.byVerb.find? fun e => e.1.opens name).isSome = true :=
    List.find?_isSome.mpr ⟨e, hmem, hleads.opens⟩
  obtain ⟨found, hfound⟩ := Option.isSome_iff_exists.mp hsome
  obtain ⟨hmem', rest', hleads'⟩ := hforth hfound
  have hkeys : ∀ e ∈ Category.byVerb, ∀ f ∈ Category.byVerb, e.1 = f.1 → e = f := by decide
  rw [hfound, hkeys found hmem' e hmem (hleads'.unique hleads).1]

/-- The category of the names that a verb leads. -/
def category (v : Verb) : Category := (Category.byVerb.lookup v).getD .general

end Verb

/-- No part of the path stands for a category. -/
def Unplaced (path : Text) : Prop :=
  ∀ e ∈ Category.byPath, ∀ part ∈ e.1, ¬ part <:+: Text.mapChar '\\' '/' path

instance (path : Text) : Decidable (Unplaced path) :=
  inferInstanceAs (Decidable (∀ e ∈ Category.byPath, ∀ part ∈ e.1, ¬ part <:+: Text.mapChar '\\' '/' path))

namespace Category

variable {v : Verb} {name rest path : Text}

theorem ofName_of_unplaced (hpath : Unplaced path) :
    ofName name path = ((byVerb.find? fun e => e.1.opens name).map Prod.snd).getD general := by
  have hnone : (byPath.find? fun e => e.1.any (Text.occursIn · (Text.mapChar '\\' '/' path))) = none := by
    rw [List.find?_eq_none]
    intro e he hany
    obtain ⟨part, hpart, hoccurs⟩ := List.any_eq_true.mp hany
    exact hpath e he part hpart (Text.occursIn_eq_true_iff.mp hoccurs)
  unfold ofName
  dsimp only
  rw [hnone]
  cases byVerb.find? fun e => e.1.opens name <;> rfl

theorem ofName_of_leads (hpath : Unplaced path) (h : v.Leads name rest) : ofName name path = v.category := by
  rw [ofName_of_unplaced hpath]
  cases hfind : byVerb.find? fun e => e.1.opens name with
  | some e =>
    obtain ⟨hmem, more, hleads⟩ := Verb.find?_byVerb_eq_some_iff.mp hfind
    have hall : ∀ e ∈ byVerb, e.2 = e.1.category := by decide
    rw [Option.map_some, Option.getD_some, hall e hmem, (hleads.unique h).1]
  | none =>
    have hrule : (v, v.category) ∈ byVerb ∨ v.category = general := by cases v <;> decide
    rcases hrule with hmem | hgeneral
    · rw [Verb.find?_byVerb_eq_some_iff.mpr ⟨hmem, rest, h⟩] at hfind
      cases hfind
    · rw [hgeneral]
      rfl

theorem ofName_of_not_leads (hpath : Unplaced path) (h : ∀ v rest, ¬ Verb.Leads v name rest) :
    ofName name path = general := by
  rw [ofName_of_unplaced hpath]
  cases hfind : byVerb.find? fun e => e.1.opens name with
  | none => rfl
  | some e =>
    obtain ⟨-, rest, hleads⟩ := Verb.find?_byVerb_eq_some_iff.mp hfind
    exact absurd hleads (h e.1 rest)

end Category

namespace Verb

/-- The words that a sentence begins with. -/
def opening : Verb → Text
  | fetch => "Fetch"
  | create => "Create a new"
  | update => "Update an existing"
  | delete => "Delete a"
  | list => "List all"
  | search => "Search and filter"
  | validate => "Validate"
  | authenticate => "Authenticate"

theorem spaced_opening (v : Verb) : Text.spaced v.opening = v.opening ∧ Text.words v.opening ≠ [] := by
  cases v <;> decide

theorem exists_sentence (subject : Text) (byId : Bool) (hv : v ≠ authenticate) :
    ∃ more, v.sentence subject byId = v.opening ++ ' ' :: more ∧ Text.words more ≠ [] := by
  have hwords {c : Char} (s : Text) {t : Text} (hc : c ∈ t) (hblank : Text.isBlank c = false) :
      Text.words (s ++ t) ≠ [] := Text.words_ne_nil (List.mem_append_right s hc) hblank
  cases v with
  | fetch =>
    cases byId with
    | true => exact ⟨"a specific ".toList ++ subject ++ " by ID".toList, rfl, hwords (c := 'D') _ (by decide) rfl⟩
    | false => exact ⟨subject ++ " data".toList, rfl, hwords (c := 'd') _ (by decide) rfl⟩
  | create => exact ⟨subject ++ " record".toList, rfl, hwords (c := 'd') _ (by decide) rfl⟩
  | update => exact ⟨subject ++ " record".toList, rfl, hwords (c := 'd') _ (by decide) rfl⟩
  | delete => exact ⟨subject ++ " record".toList, rfl, hwords (c := 'd') _ (by decide) rfl⟩
  | list => exact ⟨subject ++ " records".toList, rfl, hwords (c := 's') _ (by decide) rfl⟩
  | search => exact ⟨subject ++ " records".toList, rfl, hwords (c := 's') _ (by decide) rfl⟩
  | validate => exact ⟨subject ++ " data".toList, rfl, hwords (c := 'd') _ (by decide) rfl⟩
  | authenticate => exact absurd rfl hv

theorem words_sentence_ne_nil (subject : Text) (byId : Bool) (hv : v ≠ authenticate) :
    Text.words (v.sentence subject byId) ≠ [] := by
  obtain ⟨more, hsentence, hmore⟩ := exists_sentence subject byId hv
  rw [hsentence, Text.words_append_blank rfl]
  simp [hmore]

/-- Spacing keeps the words that a sentence begins with. -/
theorem opening_isPrefix (subject : Text) (byId : Bool) (hv : v ≠ authenticate) :
    v.opening ++ [' '] <+: Text.spaced (v.sentence subject byId) := by
  obtain ⟨more, hsentence, hmore⟩ := exists_sentence subject byId hv
  obtain ⟨hopening, hwords⟩ := v.spaced_opening
  refine ⟨Text.spaced more, ?_⟩
  rw [hsentence, Text.spaced_append_blank rfl hwords hmore, hopening]
  simp

end Verb

/-- What the description of a name begins with that some verb leads, or none. -/
def heading : Option Verb → Text
  | some v => v.opening ++ [' ']
  | none => "Function: "

theorem heading_apart (o o' : Option Verb) (h : heading o <+: heading o') : o = o' := by
  revert h
  rcases o with - | v <;> rcases o' with - | w
  · decide
  · cases w <;> decide
  · cases v <;> decide
  · cases v <;> cases w <;> decide

variable {name : Text}

theorem describe_of_leads {v : Verb} {rest : Text} (hv : v ≠ .authenticate) (h : v.Leads name rest)
    (parameters : ParameterCount) (byId : Bool) :
    describe name parameters byId = Text.spaced (v.sentence (subject rest) byId) := by
  rw [describe, Verb.find?_described_eq_some_iff.mpr ⟨hv, h⟩]

theorem describe_of_not_leads (h : ∀ v rest, v ≠ .authenticate → ¬ Verb.Leads v name rest)
    (parameters : ParameterCount) (byId : Bool) :
    "Function: ".toList ++ name <+: describe name parameters byId := by
  unfold describe
  cases hfind : Verb.find? Verb.described name with
  | none => exact List.prefix_append _ _
  | some found =>
    obtain ⟨hv, hleads⟩ := Verb.find?_described_eq_some_iff.mp hfind
    exact absurd hleads (h found.1 found.2 hv)

/-- The description tells whether it is made for a verb, and for which. -/
theorem heading_isPrefix_iff {t : Text} {o : Option Verb} (h : heading o <+: t) (o' : Option Verb) :
    heading o' <+: t ↔ o' = o := by
  constructor
  · intro h'
    rcases List.prefix_or_prefix_of_prefix h h' with hle | hle
    · exact (heading_apart o o' hle).symm
    · exact heading_apart o' o hle
  · rintro rfl
    exact h

/-- The verb of a description is that of the category; without a verb there is no category, or that of a verb which
makes no sentence. -/
theorem exists_heading {path : Text} (hpath : Unplaced path) (name : Text) (parameters : ParameterCount)
    (byId : Bool) :
    (∃ v, v ≠ .authenticate ∧ heading (some v) <+: describe name parameters byId ∧
      Category.ofName name path = v.category) ∨
    "Function: ".toList ++ name <+: describe name parameters byId ∧
      (Category.ofName name path = .authentication ∨ Category.ofName name path = .general) := by
  by_cases hleads : ∃ v rest, Verb.Leads v name rest
  · obtain ⟨v, rest, hleads⟩ := hleads
    have hcategory := Category.ofName_of_leads hpath hleads
    by_cases hv : v = .authenticate
    · subst hv
      refine .inr ⟨describe_of_not_leads ?_ parameters byId, .inl hcategory⟩
      intro w other hw hother
      exact hw (hother.unique hleads).1
    · refine .inl ⟨v, hv, ?_, hcategory⟩
      rw [describe_of_leads hv hleads]
      exact Verb.opening_isPrefix (subject rest) byId hv
  · have hnone : ∀ v rest, ¬ Verb.Leads v name rest := fun v rest h => hleads ⟨v, rest, h⟩
    exact .inr ⟨describe_of_not_leads (fun v rest _ => hnone v rest) parameters byId,
      .inr (Category.ofName_of_not_leads hpath hnone)⟩

theorem category_injective {v w : Verb} (h : v.category = w.category) (hv : v.category ≠ .general) : v = w := by
  revert h hv
  cases v <;> cases w <;> decide

theorem Category.eq_of_name_eq {c c' : Category} (h : c.name = c'.name) : c = c' := by
  have hall : ∀ c ∈ all, ∀ c' ∈ all, c.name = c'.name → c = c' := by decide
  exact hall c (mem_all c) c' (mem_all c') h

section Alike

variable {v : Verb} {path : Text} {parameters : ParameterCount} {byId : Bool}

/-- What a description says is what the category says. -/
theorem category_of_heading (hpath : Unplaced path) (h : heading (some v) <+: describe name parameters byId) :
    v ≠ .authenticate ∧ Category.ofName name path = v.category := by
  rcases exists_heading hpath name parameters byId with ⟨w, hw, hheading, hcategory⟩ | ⟨hheading, -⟩
  · obtain rfl : v = w := Option.some.inj ((heading_isPrefix_iff hheading _).mp h)
    exact ⟨hw, hcategory⟩
  · have hfunction : heading none <+: describe name parameters byId := (List.prefix_append _ _).trans hheading
    cases (heading_isPrefix_iff hfunction _).mp h

theorem name_eq_iff_heading (hpath : Unplaced path) (hv : v ≠ .authenticate) (hgeneral : v.category ≠ .general) :
    (Category.ofName name path).name = v.category.name ↔ heading (some v) <+: describe name parameters byId := by
  constructor
  · intro h
    have hcategory := Category.eq_of_name_eq h
    rcases exists_heading hpath name parameters byId with ⟨w, hw, hheading, hown⟩ | ⟨-, hnone⟩
    · obtain rfl : v = w := category_injective (hcategory.symm.trans hown) hgeneral
      exact hheading
    · have hauthenticate : Verb.authenticate.category = .authentication := rfl
      rcases hnone with hown | hown
      · exact absurd (category_injective (hcategory.symm.trans (hown.trans hauthenticate.symm)) hgeneral) hv
      · exact absurd (hcategory.symm.trans hown) hgeneral
  · intro h
    rw [(category_of_heading hpath h).2]

theorem heading_of_authentication (hpath : Unplaced path)
    (h : (Category.ofName name path).name = Category.authentication.name) :
    "Function: ".toList ++ name <+: describe name parameters byId := by
  have hcategory := Category.eq_of_name_eq h
  rcases exists_heading hpath name parameters byId with ⟨v, hv, -, hown⟩ | ⟨hheading, -⟩
  · have hauthenticate : v.category = Verb.authenticate.category := hown.symm.trans hcategory
    refine absurd (category_injective hauthenticate ?_) hv
    rw [hauthenticate]
    decide
  · exact hheading

end Alike

/-- Of a name in a file that lies in no telling place, sentence and category say the same: whether it is read as one
that fetches, creates, updates, deletes or validates, each for one of the two if for the other. What authenticates
has no sentence of its own, and what lists or searches no category; and both go by the same verb. -/
theorem described_alike {path : Text} (hpath : Unplaced path) (name : Text) (parameters : ParameterCount)
    (byId : Bool) :
    let category := (Category.ofName name path).name
    let description := describe name parameters byId
    (category = "data-access".toList ↔ "Fetch ".toList <+: description) ∧
    (category = "data-creation".toList ↔ "Create a new ".toList <+: description) ∧
    (category = "data-modification".toList ↔ "Update an existing ".toList <+: description) ∧
    (category = "data-deletion".toList ↔ "Delete a ".toList <+: description) ∧
    (category = "validation".toList ↔ "Validate ".toList <+: description) ∧
    (category = "authentication".toList → "Function: ".toList ++ name <+: description) ∧
    ("List all ".toList <+: description ∨ "Search and filter ".toList <+: description →
      category = "general".toList) ∧
    ∀ v rest e, Verb.find? Verb.described name = some (v, rest) →
      Category.byVerb.find? (fun e => e.1.opens name) = some e → e.1 = v ∧ e.1.after? name = some rest := by
  intro category description
  have hsame {v : Verb} (hv : v ≠ .authenticate) (hgeneral : v.category ≠ .general) :
      category = v.category.name ↔ heading (some v) <+: description := name_eq_iff_heading hpath hv hgeneral
  have hown {v : Verb} (h : heading (some v) <+: description) : category = v.category.name :=
    congrArg Category.name (category_of_heading hpath h).2
  refine ⟨hsame (v := .fetch) (by decide) (by decide), hsame (v := .create) (by decide) (by decide),
    hsame (v := .update) (by decide) (by decide), hsame (v := .delete) (by decide) (by decide),
    hsame (v := .validate) (by decide) (by decide), heading_of_authentication hpath, ?_, ?_⟩
  · rintro (h | h)
    · exact hown (v := .list) h
    · exact hown (v := .search) h
  · intro v rest e hsentence hcategory
    obtain ⟨-, hleads⟩ := Verb.find?_described_eq_some_iff.mp hsentence
    obtain ⟨-, more, hleads'⟩ := Verb.find?_byVerb_eq_some_iff.mp hcategory
    obtain ⟨hverb, rfl⟩ := hleads'.unique hleads
    exact ⟨hverb, hleads'.after?_eq⟩

/-- A name that a word of another verb begins as well, in letters that only count as those of ASCII. -/
theorem described_alike_covered :
    let path := "src\\users.ts".toList
    let name := "GetALLUserſ".toList
    Unplaced path ∧ (Category.ofName name path).name = "data-access".toList ∧
      "Fetch ".toList <+: describe name (.ofNat 0) false := by
  have hpath : Unplaced "src\\users.ts".toList := by decide +kernel
  have hcategory : (Category.ofName "GetALLUserſ".toList "src\\users.ts".toList).name = "data-access".toList := by
    decide +kernel
  exact ⟨hpath, hcategory, (described_alike hpath "GetALLUserſ".toList (.ofNat 0) false).1.mp hcategory⟩

end Tool

end CodeManifest
