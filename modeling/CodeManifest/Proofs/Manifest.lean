import CodeManifest.Manifest
import CodeManifest.Proofs.Files.Names
import CodeManifest.Proofs.Json.Numeral
import CodeManifest.Proofs.Keyed
import Mathlib.Algebra.GroupWithZero.Nat

namespace CodeManifest

/-- What stands at the end of keys. -/
def Value.under? (v : Value) : List Text → Option Value
  | [] => some v
  | k :: ks => (v.get? k).bind (·.under? ks)

namespace Manifest

theorem get?_object (k : Text) (fields : List (Text × Value)) : (object fields).get? k = Keyed.get? k fields := by
  unfold object Value.get?
  induction fields with
  | nil => rfl
  | cons e fields ih =>
    obtain ⟨l, v⟩ := e
    by_cases h : l = k
    · simp [Value.isText, Keyed.get?, h]
    · simpa [Value.isText, Keyed.get?, h] using ih

/-- An entry is that of a tool: under its name and its file, its parameters as properties, of which those that
are required are named once more, in their order. -/
structure IsTool (t : Tool.Descriptor) (e : Value) : Prop where
  name : e.under? ["name"] = some (.text t.name)
  file : e.under? ["file"] = some (.text t.sourceFile)
  category : e.under? ["category"] = some (.text t.category)
  schema : ∃ properties required,
    e.under? ["inputSchema", "properties"] = some (object properties) ∧
    e.under? ["inputSchema", "required"] = some (texts required) ∧
    Keyed.keys properties = t.parameters.keys ∧ required.Sublist (Keyed.keys properties) ∧ required.Nodup ∧
    ∀ n, n ∈ required ↔ (object properties).under? [n, "required"] = some (.bool true)

theorem get?_map {κ α β : Type} [DecidableEq κ] (k : κ) (f : α → β) (es : Keyed κ α) :
    Keyed.get? k (es.map fun (l, a) => (l, f a)) = (Keyed.get? k es).map f := by
  induction es with
  | nil => rfl
  | cons e es ih =>
    obtain ⟨l, a⟩ := e
    by_cases h : l = k <;> simp [Keyed.get?, h, ih]

theorem isTool_tool (t : Tool.Descriptor) : IsTool t (tool t) := by
  refine ⟨rfl, rfl, rfl, t.parameters.map fun e => (e.1, parameter e.2),
    (t.parameters.filter (·.2.required)).map Prod.fst, rfl, rfl, ?_, ?_, ?_, fun n => ?_⟩
  · simp [Keyed.keys]
  · have hkeys : Keyed.keys (t.parameters.map fun e => (e.1, parameter e.2)) = t.parameters.map Prod.fst := by
      simp [Keyed.keys]
    rw [hkeys]
    exact List.filter_sublist.map Prod.fst
  · exact (List.filter_sublist.map Prod.fst).nodup t.distinct
  · have hflag (p : Tool.Parameter) : (parameter p).under? ["required"] = some (.bool p.required) := rfl
    rw [Value.under?, get?_object, get?_map]
    constructor
    · intro h
      obtain ⟨⟨k, p⟩, hp, rfl⟩ := List.mem_map.mp h
      obtain ⟨hmem, hrequired⟩ := List.mem_filter.mp hp
      rw [Keyed.get?_of_mem t.distinct hmem, Option.map_some, Option.bind_some, hflag]
      exact congrArg (some ∘ Value.bool) hrequired
    · intro h
      cases hget : Keyed.get? n t.parameters with
      | none =>
        rw [hget] at h
        cases h
      | some p =>
        rw [hget, Option.map_some, Option.bind_some, hflag] at h
        have hrequired : p.required = true := by simpa using h
        exact List.mem_map.mpr ⟨(n, p), List.mem_filter.mpr ⟨Keyed.mem_of_get? hget, hrequired⟩, rfl⟩

/-- An entry is that of a table: under its name, its columns in their order. -/
structure IsResource (r : Schema.Resource) (e : Value) : Prop where
  name : e.under? ["name"] = some (.text r.table.name)
  file : e.under? ["metadata", "file"] = some (.text r.sourceFile)
  columns : ∃ columns, e.under? ["metadata", "columns"] = some (object columns) ∧
    Keyed.keys columns = r.table.columns.keys

theorem isResource_resource (r : Schema.Resource) : IsResource r (resource r) :=
  ⟨rfl, rfl, r.table.columns.map fun e => (e.1, column e.2), rfl, by simp [Keyed.keys]⟩

/-- The category that a tool is counted in. -/
def countedAs (t : Tool.Descriptor) : Text := if t.category.isEmpty then "general" else t.category

theorem categoryCounts_append_singleton (ts : List Tool.Descriptor) (t : Tool.Descriptor) :
    categoryCounts (ts ++ [t]) =
      Keyed.put (countedAs t) ((Keyed.get? (countedAs t) (categoryCounts ts)).getD 0 + 1) (categoryCounts ts) := by
  unfold categoryCounts
  rw [List.foldl_append]
  rfl

/-- The categories are in the order in which they come up. -/
theorem keys_categoryCounts (ts : List Tool.Descriptor) :
    (categoryCounts ts).keys = fresh id [] (ts.map countedAs) := by
  induction ts using List.reverseRecOn with
  | nil => rfl
  | append_singleton ts t ih =>
    rw [categoryCounts_append_singleton, List.map_append]
    exact Keyed.keys_put_of_fresh ih (countedAs t) _

theorem get?_categoryCounts (ts : List Tool.Descriptor) (c : Text) :
    (Keyed.get? c (categoryCounts ts)).getD 0 = ts.countP (countedAs · = c) := by
  induction ts using List.reverseRecOn with
  | nil => rfl
  | append_singleton ts t ih =>
    rw [categoryCounts_append_singleton, List.countP_append, ← ih]
    by_cases ht : countedAs t = c
    · rw [ht, Keyed.lookup_put_self]
      simp [ht]
    · rw [Keyed.lookup_put_of_ne (Ne.symm ht)]
      simp [ht]

theorem sum_categoryCounts (ts : List Tool.Descriptor) : ((categoryCounts ts).map Prod.snd).sum = ts.length := by
  induction ts using List.reverseRecOn with
  | nil => rfl
  | append_singleton ts t ih =>
    have hput := Keyed.sum_put id (countedAs t) ((Keyed.get? (countedAs t) (categoryCounts ts)).getD 0 + 1)
      (categoryCounts ts)
    have hold : ((categoryCounts ts).map fun e => id e.2).sum = ts.length := ih
    rw [Option.map_id, hold, id, id] at hput
    rw [categoryCounts_append_singleton, List.length_append, List.length_singleton]
    change ((Keyed.put _ _ _).map fun e => id e.2).sum = _
    omega

/-- The counts are those of the categories of the tools: of each category that comes up, in the order in which it
does first, how many tools there are. -/
structure Counts (ts : List Tool.Descriptor) (counts : Keyed Text Nat) : Prop where
  distinct : counts.keys.Nodup
  inOrder : ∃ positions : List Nat, positions.Pairwise (· < ·) ∧
    List.Forall₂ (FirstAt (fun t => some (countedAs t)) id ts) positions counts.keys
  complete : ∀ t ∈ ts, countedAs t ∈ counts.keys
  count : ∀ e ∈ counts, e.2 = ts.countP (countedAs · = e.1)
  sum : (counts.map Prod.snd).sum = ts.length

theorem counts_categoryCounts (ts : List Tool.Descriptor) : Counts ts (categoryCounts ts) := by
  have hkeys := keys_categoryCounts ts
  have hdistinct : (categoryCounts ts).keys.Nodup := by
    rw [hkeys]
    simpa using nodup_keys_fresh id [] (ts.map countedAs)
  refine ⟨hdistinct, ?_, fun t ht => ?_, fun e he => ?_, sum_categoryCounts ts⟩
  · obtain ⟨positions, hlt, hall⟩ := fresh_positions (fun t => some (countedAs t)) id [] ts
    rw [hkeys, ← List.filterMap_eq_map]
    exact ⟨positions, hlt, hall.imp fun _ _ h => h.1⟩
  · have hmem := (mem_keys_fresh id [] (ts.map countedAs) (countedAs t)).mpr
      ⟨by simpa using List.mem_map_of_mem ht, List.not_mem_nil⟩
    rw [hkeys]
    simpa using hmem
  · rw [← get?_categoryCounts, Keyed.get?_of_mem hdistinct he]
    rfl

/-- The lines of a text under a heading, up to the next blank one. -/
def linesUnder (heading t : Text) : List Text :=
  (((Text.split (· = '\n') t).dropWhile (· ≠ heading)).drop 1).takeWhile (· ≠ [])

theorem section_of_lines {before lines after : List Text} {heading : Text} (hbefore : heading ∉ before)
    (hlines : [] ∉ lines) :
    (((before ++ heading :: (lines ++ [] :: after)).dropWhile (· ≠ heading)).drop 1).takeWhile (· ≠ []) = lines := by
  have hfirst : ∀ l ∈ before, decide (l ≠ heading) = true := fun l hl =>
    decide_eq_true fun h => hbefore (h ▸ hl)
  have hfilled : ∀ l ∈ lines, decide (l ≠ []) = true := fun l hl => decide_eq_true fun h => hlines (h ▸ hl)
  rw [List.dropWhile_append_of_pos hfirst, List.dropWhile_cons_of_neg (by simp), List.drop_one, List.tail_cons,
    List.takeWhile_append_of_pos hfilled, List.takeWhile_cons_of_neg (by simp), List.append_nil]

/-- The line of a list about something with a name, of which there are `n` of a kind. -/
def itemLine (name colon : Text) (n : Nat) (kind : Text) : Text :=
  "- **".toList ++ name ++ colon ++ Text.ofNat n ++ kind

def categoryLine (c : Text) (n : Nat) : Text := itemLine c "**: " n " tools"

def resourceLine (name : Text) (columns : Nat) : Text := itemLine name "** (" columns " columns)"

/-- No name in the lists of a summary has the end of a line in it. -/
structure OneLine (m : Manifest) : Prop where
  categories : ∀ t ∈ m.tools, '\n' ∉ t.category
  resources : ∀ r ∈ m.resources, '\n' ∉ r.table.name

theorem noBreak_of_allDigits {t : Text} (h : Json.AllDigits t) : '\n' ∉ t := by
  intro hmem
  cases h _ hmem

theorem noBreak_renderUtc (i : Instant) : '\n' ∉ i.renderUtc := by
  have hpadded (width n : Nat) : '\n' ∉ Text.padded width n := noBreak_of_allDigits (Json.allDigits_padded width n)
  simp [Instant.renderUtc, Instant.renderTime, Date.render, hpadded]

theorem noBreak_countedAs {t : Tool.Descriptor} (h : '\n' ∉ t.category) : '\n' ∉ countedAs t := by
  unfold countedAs
  split
  · decide
  · exact h

theorem noBreak_itemLine {name colon kind : Text} (hname : '\n' ∉ name) (hcolon : '\n' ∉ colon) (n : Nat)
    (hkind : '\n' ∉ kind) : '\n' ∉ itemLine name colon n kind := by
  have hcount : '\n' ∉ Text.ofNat n := noBreak_of_allDigits (Json.allDigits_ofNat n)
  simp only [itemLine, List.mem_append, not_or]
  exact ⟨⟨⟨⟨by decide, hname⟩, hcolon⟩, hcount⟩, hkind⟩

variable {m : Manifest}

/-- The first lines of a summary, which name the project. They may have ends of lines in them. -/
def titleLines (m : Manifest) (generatedAt : Instant) : List Text := [
  "# MCP Manifest Summary".toList,
  [],
  "Generated: ".toList ++ generatedAt.renderUtc,
  "Project: ".toList ++ m.metadata.name.toText ++ " v".toList ++ m.metadata.version.toText]

def title (m : Manifest) (generatedAt : Instant) : Text := Text.join ['\n'] (m.titleLines generatedAt)

/-- The lines of a summary between its title and the categories. -/
def statistics (m : Manifest) : List Text := [
  [],
  "## Statistics".toList,
  "- **Tools**: ".toList ++ Text.ofNat m.tools.length,
  "- **Resources**: ".toList ++ Text.ofNat m.resources.length,
  "- **Categories**: ".toList ++ Text.ofNat (categoryCounts m.tools).length,
  []]

def categoryLines (m : Manifest) : List Text := (categoryCounts m.tools).map fun e => categoryLine e.1 e.2

def resourceLines (m : Manifest) : List Text :=
  m.resources.map fun r => resourceLine r.table.name r.table.columns.length

/-- The lines of a summary behind the resources. -/
def closing (m : Manifest) : List Text := [
  "## Files Processed".toList,
  "- TypeScript files: ".toList ++ m.sourceFiles.toText,
  "- SQL files: ".toList ++ m.sqlFiles.toText,
  []]

/-- The lines of a summary behind its title. -/
def listing (m : Manifest) : List Text :=
  m.statistics ++ "## Tools by Category".toList ::
    (m.categoryLines ++ [] :: "## Resources".toList :: (m.resourceLines ++ [[]])) ++ m.closing

theorem summary_eq_join (m : Manifest) (generatedAt : Instant) :
    m.summary generatedAt = m.title generatedAt ++ '\n' :: Text.join ['\n'] m.listing := by
  have htitle : m.titleLines generatedAt ≠ [] := List.cons_ne_nil _ _
  have hlisting : m.listing ≠ [] := List.cons_ne_nil _ _
  have hlines : m.titleLines generatedAt ++ m.listing =
      m.titleLines generatedAt ++ m.statistics ++ ["## Tools by Category".toList] ++ m.categoryLines ++
        [[], "## Resources".toList] ++ m.resourceLines ++ [] :: m.closing := by
    simp only [listing, List.append_assoc, List.cons_append, List.nil_append]
  have hjoin : Text.join ['\n'] (m.titleLines generatedAt ++ m.listing) =
      m.title generatedAt ++ '\n' :: Text.join ['\n'] m.listing := Text.join_append htitle hlisting
  rw [← hjoin, hlines]
  rfl

theorem noBreak_statistics (m : Manifest) : ∀ l ∈ m.statistics, '\n' ∉ l := by
  have hnumeral (n : Nat) : '\n' ∉ Text.ofNat n := noBreak_of_allDigits (Json.allDigits_ofNat n)
  simp only [statistics, List.forall_mem_cons, List.mem_append, not_or, hnumeral]
  decide

theorem noBreak_categoryLines (h : m.OneLine) : ∀ l ∈ m.categoryLines, '\n' ∉ l := by
  refine List.forall_mem_map.mpr fun e he => noBreak_itemLine ?_ (by decide) e.2 (by decide)
  have hkey : e.1 ∈ (categoryCounts m.tools).keys := List.mem_map_of_mem he
  rw [keys_categoryCounts] at hkey
  obtain ⟨t, ht, hcategory⟩ := List.mem_map.mp (mem_of_mem_fresh hkey)
  exact hcategory ▸ noBreak_countedAs (h.categories t ht)

/-- The lines behind the title come apart up to the last of the resources. -/
theorem exists_lines (h : m.OneLine) :
    ∃ after, Text.split (· = '\n') (Text.join ['\n'] m.listing) =
      m.statistics ++ "## Tools by Category".toList :: (m.categoryLines ++
        [] :: "## Resources".toList :: (m.resourceLines ++ [] :: after)) := by
  have hresources : ∀ l ∈ m.resourceLines, '\n' ∉ l :=
    List.forall_mem_map.mpr fun r hr => noBreak_itemLine (h.resources r hr) (by decide) _ (by decide)
  have hclosing : m.closing ≠ [] := List.cons_ne_nil _ _
  refine ⟨Text.split (· = '\n') (Text.join ['\n'] m.closing), ?_⟩
  rw [listing, Text.split_join_append hclosing]
  · simp only [List.append_assoc, List.cons_append, List.nil_append]
  · simp only [List.forall_mem_append, List.forall_mem_cons]
    exact ⟨noBreak_statistics m, by decide, noBreak_categoryLines h, by decide, by decide, hresources,
      by decide, by simp⟩

/-- Only one line in front of the categories begins as the headings of the two lists do. -/
theorem notMem_statistics (m : Manifest) :
    "## Tools by Category".toList ∉ m.statistics ∧ "## Resources".toList ∉ m.statistics := by
  simp only [statistics, List.mem_cons, not_or]
  refine ⟨⟨by decide, by decide, ?_, ?_, ?_, by decide, by simp⟩, by decide, by decide, ?_, ?_, ?_, by decide,
    by simp⟩
  all_goals
    intro h
    cases h

/-- A line of a list begins with a dash. -/
theorem head?_of_mem_lines {l : Text} (h : l ∈ m.categoryLines ∨ l ∈ m.resourceLines) : l.head? = some '-' := by
  rcases h with h | h
  · obtain ⟨e, -, rfl⟩ := List.mem_map.mp h
    rfl
  · obtain ⟨r, -, rfl⟩ := List.mem_map.mp h
    rfl

theorem linesUnder_categories (h : m.OneLine) :
    linesUnder "## Tools by Category" (Text.join ['\n'] m.listing) = m.categoryLines := by
  obtain ⟨after, hlines⟩ := exists_lines h
  rw [linesUnder, hlines]
  refine section_of_lines (notMem_statistics m).1 fun hblank => ?_
  cases head?_of_mem_lines (Or.inl hblank)

theorem linesUnder_resources (h : m.OneLine) :
    linesUnder "## Resources" (Text.join ['\n'] m.listing) = m.resourceLines := by
  obtain ⟨after, hlines⟩ := exists_lines h
  have hsplit : Text.split (· = '\n') (Text.join ['\n'] m.listing) =
      (m.statistics ++ "## Tools by Category".toList :: (m.categoryLines ++ [[]])) ++
        "## Resources".toList :: (m.resourceLines ++ [] :: after) := by
    rw [hlines]
    simp only [List.append_assoc, List.cons_append, List.nil_append]
  rw [linesUnder, hsplit]
  refine section_of_lines ?_ fun hblank => ?_
  · simp only [List.mem_append, List.mem_cons, not_or]
    refine ⟨(notMem_statistics m).2, by decide, fun hline => ?_, by decide, by simp⟩
    cases head?_of_mem_lines (Or.inl hline)
  · cases head?_of_mem_lines (Or.inr hblank)

/-- A title in which no other lines end does not hide what stands under a heading. -/
theorem linesUnder_title {generatedAt : Instant} {heading : Text}
    (hname : '\n' ∉ m.metadata.name.toText ++ m.metadata.version.toText)
    (hheading : heading ∈ ["## Tools by Category".toList, "## Resources".toList]) (rest : Text) :
    linesUnder heading (m.title generatedAt ++ '\n' :: rest) = linesUnder heading rest := by
  obtain ⟨hname, hversion⟩ := not_or.mp (List.mem_append.not.mp hname)
  have hbreak : ∀ l ∈ m.titleLines generatedAt, '\n' ∉ l := by
    simp only [titleLines, List.forall_mem_cons, List.mem_append, not_or, hname, hversion, noBreak_renderUtc]
    decide
  have hother : ∀ l ∈ m.titleLines generatedAt, decide (l ≠ heading) = true := by
    simp only [titleLines, List.forall_mem_cons, decide_eq_true_eq]
    simp only [List.mem_cons, List.not_mem_nil, or_false] at hheading
    rcases hheading with rfl | rfl
    · exact ⟨by decide, by decide, nofun, nofun, nofun⟩
    · exact ⟨by decide, by decide, nofun, nofun, nofun⟩
  have htitle : m.titleLines generatedAt ≠ [] := List.cons_ne_nil _ _
  have hrest : [rest] ≠ [] := List.cons_ne_nil _ _
  have hlast : Text.join ['\n'] [rest] = rest := by simp [Text.join]
  have hjoin : Text.join ['\n'] (m.titleLines generatedAt ++ [rest]) = m.title generatedAt ++ '\n' :: rest := by
    rw [Text.join_append htitle hrest, hlast]
    rfl
  have hsplit := Text.split_join_append hrest hbreak
  rw [hjoin, hlast] at hsplit
  rw [linesUnder, hsplit, List.dropWhile_append_of_pos hother]
  rfl

/-- Wherever a manifest counts its tools and tables, or lists them once more, it agrees with its lists of both; and
so does its summary behind the title, where no name in the lists runs over the end of a line. -/
theorem derived_agree (m : Manifest) :
    ∃ tools resources counts,
      m.toValue.under? ["tools"] = some (.list tools) ∧ List.Forall₂ IsTool m.tools tools ∧
      m.toValue.under? ["resources"] = some (.list resources) ∧ List.Forall₂ IsResource m.resources resources ∧
      m.toValue.under? ["statistics", "totalTools"] = some (.int tools.length) ∧
      m.toValue.under? ["statistics", "totalResources"] = some (.int resources.length) ∧
      m.toValue.under? ["statistics", "toolsByCategory"] = some (object (counts.map fun (c, n) => (c, .int n))) ∧
      Counts m.tools counts ∧
      (m.OneLine → ∀ generatedAt, ∃ rest, m.summary generatedAt = m.title generatedAt ++ '\n' :: rest ∧
        linesUnder "## Tools by Category" rest = counts.map (fun (c, n) => categoryLine c n) ∧
        linesUnder "## Resources" rest =
          m.resources.map (fun r => resourceLine r.table.name r.table.columns.length) ∧
        ('\n' ∉ m.metadata.name.toText ++ m.metadata.version.toText →
          ∀ heading ∈ ["## Tools by Category".toList, "## Resources".toList],
            linesUnder heading (m.summary generatedAt) = linesUnder heading rest)) := by
  refine ⟨m.tools.map tool, m.resources.map resource, categoryCounts m.tools, rfl, ?_, rfl, ?_, ?_, ?_, rfl,
    counts_categoryCounts m.tools, fun h generatedAt => ?_⟩
  · exact List.forall₂_map_right_iff.mpr (List.forall₂_same.mpr fun t _ => isTool_tool t)
  · exact List.forall₂_map_right_iff.mpr (List.forall₂_same.mpr fun r _ => isResource_resource r)
  · rw [List.length_map]
    rfl
  · rw [List.length_map]
    rfl
  · refine ⟨_, summary_eq_join m generatedAt, linesUnder_categories h, linesUnder_resources h, ?_⟩
    intro hname heading hheading
    rw [summary_eq_join]
    exact linesUnder_title hname hheading _

/-- A manifest of two tools and a table, of a project whose version runs over the end of a line. -/
def small : Manifest where
  metadata := { name := .text "shop", version := .text "1.0\n(beta)" }
  tools := [
    { name := "getItem", description := "Get an item", category := "data_access"
      parameters := [("id", { type := "string" }), ("full", { type := "boolean", required := false })] },
    { name := "run", description := "Run", category := [] }]
  resources := [{ table := { name := "item", columns := [("id", { type := "INT" })] }, sourceFile := "item.sql" }]
  generatedAt := { micros := 0 }

theorem derived_agree_small : ∃ tools rest counts,
    small.toValue.under? ["tools"] = some (.list tools) ∧ List.Forall₂ IsTool small.tools tools ∧
    Counts small.tools counts ∧ counts = [("data_access".toList, 1), ("general".toList, 1)] ∧
    small.summary { micros := 1 } = small.title { micros := 1 } ++ '\n' :: rest ∧
    linesUnder "## Tools by Category" rest = ["- **data_access**: 1 tools".toList, "- **general**: 1 tools".toList] ∧
    linesUnder "## Resources" rest = ["- **item** (1 columns)".toList] := by
  obtain ⟨tools, resources, counts, htools, hall, -, -, -, -, hobject, hcounts, hlines⟩ := derived_agree small
  have hone : small.OneLine := ⟨by decide, by decide⟩
  obtain ⟨rest, hrest, hcategories, hresources, -⟩ := hlines hone { micros := 1 }
  have hpairs : small.toValue.under? ["statistics", "toolsByCategory"] =
      some (object [("data_access".toList, .int 1), ("general".toList, .int 1)]) := by
    rfl
  obtain rfl : counts = [("data_access".toList, 1), ("general".toList, 1)] := by
    have hinjective : Function.Injective fun e : Text × Nat => (Value.text e.1, Value.int e.2) := by
      intro e f h
      obtain ⟨htext, hint⟩ := Prod.mk.inj h
      exact Prod.ext (Value.text.inj htext) (Int.ofNat_inj.mp (Value.int.inj hint))
    have hmap := Value.map.inj (Option.some.inj (hobject.symm.trans hpairs))
    rw [List.map_map] at hmap
    exact List.map_injective_iff.mpr hinjective hmap
  exact ⟨tools, rest, _, htools, hall, hcounts, rfl, hrest, hcategories, hresources⟩

end Manifest

end CodeManifest
