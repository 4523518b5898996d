import CodeManifest.Proofs.Source.DocComment

namespace CodeManifest

namespace Text

/-- The characters of the text that are no blanks. -/
def visible (t : Text) : Text := t.filter (! isBlank ·)

theorem visible_append (s t : Text) : visible (s ++ t) = visible s ++ visible t := List.filter_append ..

theorem visible_of_not_blank {t : Text} (h : ∀ c ∈ t, isBlank c = false) : visible t = t :=
  List.filter_eq_self.mpr fun c hc => by simp [h c hc]

theorem visible_trim (t : Text) : visible (trim t) = visible t := filter_trim (by simp) t

theorem visible_trimLeft (t : Text) : visible (trimLeft t) = visible t := filter_trimLeft (by simp) t

theorem visible_join_newline (ts : List Text) : visible (join "\n" ts) = visible ts.flatten := by
  induction ts with
  | nil => rfl
  | cons t ts ih =>
    by_cases hts : ts = []
    · simp [hts, join]
    · have hnewline : visible "\n".toList = [] := rfl
      rw [join_cons _ t hts, List.flatten_cons, visible_append, visible_append, visible_append, hnewline, ih,
        List.append_nil]

end Text

namespace Source.DocComment

/-- Blanks aside, the line is an at sign with the name of the tag, and after a blank what is said behind it. -/
def Opens (line tag first : Text) : Prop :=
  IsTagName tag ∧ ∃ rest, Text.trim line = '@' :: (tag ++ rest) ∧ (∀ c ∈ rest.head?, Text.isBlank c = true) ∧
    first = Text.trimLeft rest

theorem tag?_eq_some_iff {line tag first : Text} : tag? line = some (tag, first) ↔ Opens line tag first := by
  constructor
  · exact Comment.exists_rest_of_tag?
  · intro ⟨htag, rest, hline, hrest, hfirst⟩
    rw [hfirst]
    exact Comment.tag?_eq_some htag hline hrest

theorem exists_opens {line : Text} (h : LooksLikeTag line) : ∃ tag first, Opens line tag first := by
  obtain ⟨tag, rest, htag, hline, hrest⟩ := h
  exact ⟨tag, Text.trimLeft rest, htag, rest, hline, hrest, rfl⟩

theorem Opens.visible {line tag first : Text} (h : Opens line tag first) :
    Text.visible line = '@' :: (tag ++ Text.visible first) := by
  obtain ⟨htag, rest, hline, -, hfirst⟩ := h
  have hword : ∀ c ∈ '@' :: tag, Text.isBlank c = false := by
    refine List.forall_mem_cons.mpr ⟨rfl, ?_⟩
    intro c hc
    exact Text.isBlank_eq_false_of_isWord (Comment.isWord_of_isTagName htag c hc)
  calc Text.visible line = Text.visible (('@' :: tag) ++ rest) := by rw [← Text.visible_trim, hline]; rfl
    _ = ('@' :: tag) ++ Text.visible first := by
      rw [Text.visible_append, Text.visible_of_not_blank hword, hfirst, Text.visible_trimLeft]

/-- A tag line and the lines below it, down to the next. -/
structure Entry where
  line : Text
  tag : Text
  first : Text
  more : List Text
  opens : Opens line tag first
  more_free : ∀ l ∈ more, ¬ LooksLikeTag l

namespace Entry

def lines (e : Entry) : List Text := e.line :: e.more

/-- What is said under the tag: the rest of its line, if there is any, and the lines below. -/
def text (e : Entry) : Text := Text.trim (Comment.sectionText e.first e.more)

end Entry

/-- The lines cut at those that open an entry. -/
structure Cut (ls : List Text) where
  opening : List Text
  entries : List Entry
  opening_free : ∀ l ∈ opening, ¬ LooksLikeTag l
  lines_eq : ls = opening ++ entries.flatMap Entry.lines

/-- What the comment says is what stands in the parts. -/
structure Cut.Reads {ls : List Text} (c : Cut ls) (d : DocComment) : Prop where
  description : d.description = Text.trim (Text.join "\n" c.opening)
  nodup : (Keyed.keys d.tags).Nodup
  /-- There are as many texts under all tags as there are tag lines. -/
  total : (d.tags.map fun e => e.2.length).sum = c.entries.length
  /-- A tag that stands `k` times above has the text of an entry as its `k`-th, counted from zero. -/
  occurrence : ∀ front e back, c.entries = front ++ e :: back →
    ∃ texts, d.tags.get? e.tag = some texts ∧ texts[front.countP (·.tag = e.tag)]? = some e.text
  examples : d.examples = (c.entries.filter fun e => e.tag = "example".toList ∧ e.text ≠ []).map Entry.text
  /-- What can be seen of the lines stands in the description and then in the entries, all in order. -/
  visible : Text.visible ls.flatten =
    Text.visible d.description ++ c.entries.flatMap fun e => '@' :: (e.tag ++ Text.visible e.text)

theorem exists_cut (ls : List Text) : Nonempty (Cut ls) := by
  induction ls with
  | nil => exact ⟨⟨[], [], by simp, rfl⟩⟩
  | cons l ls ih =>
    obtain ⟨c⟩ := ih
    have hls := c.lines_eq
    by_cases hl : LooksLikeTag l
    · -- the lines that no tag has claimed so far are those below this one
      obtain ⟨tag, first, hopens⟩ := exists_opens hl
      let e : Entry := ⟨l, tag, first, c.opening, hopens, c.opening_free⟩
      have hcut : l :: ls = [] ++ (e :: c.entries).flatMap Entry.lines := by
        rw [List.nil_append, List.flatMap_cons, Entry.lines, List.cons_append, ← hls]
      exact ⟨⟨[], e :: c.entries, by simp, hcut⟩⟩
    · have hfree : ∀ m ∈ l :: c.opening, ¬ LooksLikeTag m := List.forall_mem_cons.mpr ⟨hl, c.opening_free⟩
      exact ⟨⟨l :: c.opening, c.entries, hfree, congrArg (List.cons l) hls⟩⟩

/-- The entry as a section. -/
def Entry.part (e : Entry) : Section :=
  (some e.tag, (if e.first.isEmpty then [] else [e.first]) ++ e.more)

theorem sections_free {ls rest : List Text} {ls' : List Text} {more : List Section} (hfree : ∀ l ∈ ls, ¬ LooksLikeTag l)
    (h : sections ls' = (none, rest) :: more) : sections (ls ++ ls') = (none, ls ++ rest) :: more :=
  Comment.sections_append (fun l hl => Comment.tag?_eq_none (hfree l hl)) h

theorem sections_entries (es : List Entry) :
    sections (es.flatMap Entry.lines) = (none, []) :: es.map Entry.part := by
  induction es with
  | nil => rfl
  | cons e es ih =>
    have hmore := sections_free e.more_free ih
    rw [List.append_nil] at hmore
    exact Comment.sections_cons_tag (tag?_eq_some_iff.mpr e.opens) hmore

theorem Cut.sections_eq {ls : List Text} (c : Cut ls) :
    sections ls = (none, c.opening) :: c.entries.map Entry.part := by
  have hopening := sections_free c.opening_free (sections_entries c.entries)
  rwa [← c.lines_eq, List.append_nil] at hopening

/-- What has been read of a comment: the sections that are closed, and the one that is open. -/
structure Reading where
  closed : List Section := []
  tag : Option Text := none
  lines : List Text := []

namespace Reading

/-- A tag line closes the section that is open and opens its own; any other line goes to the one that is open. -/
def take (r : Reading) (l : Text) : Reading :=
  match tag? l with
  | some (tag, first) => ⟨r.closed ++ [(r.tag, r.lines)], some tag, if first.isEmpty then [] else [first]⟩
  | none => { r with lines := r.lines ++ [l] }

/-- The sections when nothing follows. -/
def sections (r : Reading) : List Section := r.closed ++ [(r.tag, r.lines)]

/-- The lines that no tag has claimed belong to the section that was open above them. -/
theorem sections_foldl {ls rest : List Text} {more : List Section}
    (h : DocComment.sections ls = (none, rest) :: more) (r : Reading) :
    (ls.foldl take r).sections = r.closed ++ (r.tag, r.lines ++ rest) :: more := by
  induction ls generalizing r rest more with
  | nil =>
    obtain ⟨hrest, rfl⟩ := List.cons.inj h
    obtain rfl := (Prod.mk.inj hrest).2
    rw [List.append_nil]
    rfl
  | cons l ls ih =>
    obtain ⟨c⟩ := exists_cut ls
    have hls := c.sections_eq
    rw [List.foldl_cons]
    cases htag : tag? l with
    | none =>
      have hl : DocComment.sections (l :: ls) = (none, [l] ++ c.opening) :: c.entries.map Entry.part :=
        Comment.sections_append (List.forall_mem_singleton.mpr htag) hls
      obtain ⟨hrest, rfl⟩ := List.cons.inj (h.symm.trans hl)
      obtain rfl := (Prod.mk.inj hrest).2
      rw [ih hls, take, htag, List.append_assoc]
    | some found =>
      obtain ⟨tag, first⟩ := found
      obtain ⟨hrest, rfl⟩ := List.cons.inj (h.symm.trans (Comment.sections_cons_tag htag hls))
      obtain rfl := (Prod.mk.inj hrest).2
      rw [ih hls, take, htag, List.append_nil, List.append_assoc]
      rfl

end Reading

/-- The sections are those of a reading from the top, which closes the last of them at the end. -/
theorem sections_eq_foldl (ls : List Text) : sections ls = (ls.foldl Reading.take {}).sections := by
  obtain ⟨c⟩ := exists_cut ls
  rw [Reading.sections_foldl c.sections_eq, c.sections_eq]
  rfl

/-- The texts of the entries with their tags. -/
def Cut.said {ls : List Text} (c : Cut ls) : List (Text × Text) := c.entries.map fun e => (e.tag, e.text)

theorem Cut.tagsOf_eq {ls : List Text} (c : Cut ls) : tagsOf (c.entries.map Entry.part) = byTag c.said := by
  rw [tagsOf, byTag, Cut.said, List.foldl_map, List.foldl_map]
  rfl

theorem sum_addTag (tags : Keyed Text (List Text)) (name text : Text) :
    ((addTag tags name text).map fun e => e.2.length).sum = (tags.map fun e => e.2.length).sum + 1 := by
  have hput := Keyed.sum_put List.length name ((tags.get? name).getD [] ++ [text]) tags
  rw [List.length_append, List.length_singleton] at hput
  cases hget : tags.get? name with
  | none =>
    rw [hget] at hput
    simpa [addTag, hget] using hput
  | some texts =>
    rw [hget, Option.map_some, Option.getD_some, Option.getD_some] at hput
    rw [addTag, hget, Option.getD_some]
    omega

theorem sum_byTag (es : List (Text × Text)) : ((byTag es).map fun e => e.2.length).sum = es.length := by
  induction es using List.reverseRecOn with
  | nil => rfl
  | append_singleton es e ih => rw [byTag_append_singleton, sum_addTag, ih, List.length_append, List.length_singleton]

/-- An entry stands in the list of its tag behind those that came before it. -/
theorem get?_byTag (front : List (Text × Text)) (e : Text × Text) (back : List (Text × Text)) :
    ∃ texts, (byTag (front ++ e :: back)).get? e.1 = some texts ∧ texts[front.countP (·.1 = e.1)]? = some e.2 := by
  have htexts : textsOf e.1 (front ++ e :: back) = textsOf e.1 front ++ e.2 :: textsOf e.1 back := by
    simp [textsOf]
  have hlength : (textsOf e.1 front).length = front.countP (·.1 = e.1) := by
    rw [textsOf, List.length_map, List.countP_eq_length_filter]
  have hat : (textsOf e.1 (front ++ e :: back))[front.countP (·.1 = e.1)]? = some e.2 := by
    rw [htexts, ← hlength, List.getElem?_append_right (Nat.le_refl _), Nat.sub_self, List.getElem?_cons_zero]
  have hget := getD_byTag e.1 (front ++ e :: back)
  cases htags : (byTag (front ++ e :: back)).get? e.1 with
  | none =>
    rw [htags, htexts] at hget
    simp at hget
  | some texts =>
    rw [htags, Option.getD_some] at hget
    exact ⟨texts, rfl, hget ▸ hat⟩

theorem Entry.visible_lines (e : Entry) :
    Text.visible e.lines.flatten = '@' :: (e.tag ++ Text.visible e.text) := by
  have hfirst : (if e.first.isEmpty then [] else [e.first]).flatten = e.first := by
    by_cases hempty : e.first = []
    · simp [hempty]
    · simp [hempty]
  have htext : Text.visible e.text = Text.visible e.first ++ Text.visible e.more.flatten := by
    rw [Entry.text, Text.visible_trim, Comment.sectionText, Text.visible_join_newline, List.flatten_append, hfirst,
      Text.visible_append]
  rw [Entry.lines, List.flatten_cons, Text.visible_append, e.opens.visible, htext]
  simp

theorem visible_entries (es : List Entry) : Text.visible (es.flatMap Entry.lines).flatten =
    es.flatMap fun e => '@' :: (e.tag ++ Text.visible e.text) := by
  induction es with
  | nil => rfl
  | cons e es ih =>
    rw [List.flatMap_cons, List.flatten_append, Text.visible_append, e.visible_lines, ih, List.flatMap_cons]

theorem Cut.examples_eq {ls : List Text} (c : Cut ls) : (textsOf "example" c.said).filter (! ·.isEmpty) =
    (c.entries.filter fun e => e.tag = "example".toList ∧ e.text ≠ []).map Entry.text := by
  have hsaid : textsOf "example" c.said = (c.entries.filter (·.tag = "example".toList)).map Entry.text := by
    rw [textsOf, Cut.said, List.filter_map, List.map_map]
    rfl
  rw [hsaid, List.filter_map, List.filter_filter]
  have hsame : (fun e : Entry => !e.text.isEmpty && decide (e.tag = "example".toList)) =
      fun e => decide (e.tag = "example".toList ∧ e.text ≠ []) := by
    funext e
    rw [Bool.decide_and, Bool.and_comm]
    cases e.text <;> rfl
  exact congrArg (fun p => (c.entries.filter p).map Entry.text) hsame

/-- What is read of a comment with these lines. -/
def Cut.documentation {ls : List Text} (c : Cut ls) : DocComment where
  description := body c.opening
  examples := (((byTag c.said).get? "example".toList).getD []).filter (! ·.isEmpty)
  tags := byTag c.said

theorem Cut.parse_eq {t inside : Text} (ht : Text.trim t = "/**".toList ++ (inside ++ "*/".toList))
    (c : Cut ((Text.lines inside).map stripLine)) : parse t = some c.documentation := by
  have htagged : (c.entries.map Entry.part).filter (·.1.isNone) = [] := by
    rw [List.filter_eq_nil_iff]
    simp [Entry.part]
  rw [parse_of_sections ht c.sections_eq htagged, c.tagsOf_eq]
  rfl

theorem Cut.reads_documentation {ls : List Text} (c : Cut ls) : c.Reads c.documentation where
  description := rfl
  nodup := nodup_keys_byTag c.said
  total := by rw [Cut.documentation, sum_byTag, Cut.said, List.length_map]
  occurrence := by
    intro front e back hentries
    let say (e : Entry) : Text × Text := (e.tag, e.text)
    have hsaid : c.said = front.map say ++ say e :: back.map say := by
      rw [Cut.said, hentries, List.map_append, List.map_cons]
    have hget := get?_byTag (front.map say) (say e) (back.map say)
    rw [List.countP_map] at hget
    rw [Cut.documentation, hsaid]
    exact hget
  examples := by rw [Cut.documentation, getD_byTag, c.examples_eq]
  visible := by
    have hbody : Text.visible (body c.opening) = Text.visible c.opening.flatten := by
      rw [body, Text.visible_trim, Text.visible_join_newline]
    have hlines : ls.flatten = c.opening.flatten ++ (c.entries.flatMap Entry.lines).flatten := by
      rw [← List.flatten_append, ← c.lines_eq]
    rw [hlines, Text.visible_append, visible_entries, Cut.documentation, hbody]

/-- Each line of a comment counts to the part that it stands in: the lines above the first tag to the description, and a
tag line with those down to the next to one text of the tag. -/
theorem lines_conserved {t : Text} (h : isDoc (Text.trim t) = true) :
    ∃ inside d, Text.trim t = "/**".toList ++ (inside ++ "*/".toList) ∧ parse t = some d ∧
      Nonempty (Cut ((Text.lines inside).map stripLine)) ∧
      ∀ c : Cut ((Text.lines inside).map stripLine), c.Reads d := by
  obtain ⟨inside, ht⟩ := isDoc_iff.mp h
  obtain ⟨c⟩ := exists_cut ((Text.lines inside).map stripLine)
  refine ⟨inside, c.documentation, ht, c.parse_eq ht, ⟨c⟩, ?_⟩
  intro c'
  have hsame : c'.documentation = c.documentation := Option.some.inj ((c'.parse_eq ht).symm.trans (c.parse_eq ht))
  rw [← hsame]
  exact c'.reads_documentation

/-- A tag that comes three times, once with nothing behind it and once on the last line. -/
theorem lines_conserved_repeated :
    let t : Text := "/** Adds.\n * @see a\n * @see\n * @example\n *\n *   f()\n * @see b */"
    let d : DocComment := {
      description := "Adds."
      examples := ["f()".toList]
      tags := [("see".toList, ["a".toList, [], "b".toList]), ("example".toList, ["f()".toList])] }
    isDoc (Text.trim t) = true ∧ parse t = some d ∧ ∃ inside, Text.trim t = "/**".toList ++ (inside ++ "*/".toList) ∧
      Nonempty (Cut ((Text.lines inside).map stripLine)) ∧
      ∀ c : Cut ((Text.lines inside).map stripLine), c.Reads d := by
  intro t d
  have hdoc : isDoc (Text.trim t) = true := by decide +kernel
  have hparse : parse t = some d := by decide +kernel
  obtain ⟨inside, d', ht, hparse', hcut, hreads⟩ := lines_conserved hdoc
  have hd : d' = d := Option.some.inj (hparse'.symm.trans hparse)
  rw [hd] at hreads
  exact ⟨hdoc, hparse, inside, ht, hcut, hreads⟩

end Source.DocComment

end CodeManifest
