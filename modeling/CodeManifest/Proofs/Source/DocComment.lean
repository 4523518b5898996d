import CodeManifest.Proofs.Keyed
import CodeManifest.Proofs.Text.Blank
import CodeManifest.Source.DocComment
import Mathlib

namespace CodeManifest

namespace Text

/-- A line as it stands in a text: it has no line end in it, and does not end with a blank. -/
structure IsLine (l : Text) : Prop where
  noEnd : ∀ c ∈ l, isLineEnd c = false
  trimmed : trimRight l = l

instance (l : Text) : Decidable (IsLine l) :=
  decidable_of_iff (l.all (! isLineEnd ·) = true ∧ trimRight l = l)
    ⟨fun h => ⟨by simpa using h.1, h.2⟩, fun h => ⟨by simpa using h.noEnd, h.trimmed⟩⟩

theorem lines_append_newline {l : Text} (h : ∀ c ∈ l, isLineEnd c = false) (t : Text) :
    lines (l ++ '\n' :: t) = l :: lines t := by
  induction l with
  | nil => rfl
  | cons c l ih =>
    obtain ⟨hc, hl⟩ := List.forall_mem_cons.mp h
    have hcr : c ≠ '\r' := by
      rintro rfl
      cases hc
    rw [List.cons_append, lines]
    · simp [hc, ih hl]
    · simp [hcr]

theorem lines_flatMap {ls : List Text} (h : ∀ l ∈ ls, ∀ c ∈ l, isLineEnd c = false) (t : Text) :
    lines (ls.flatMap (· ++ ['\n']) ++ t) = ls ++ lines t := by
  induction ls with
  | nil => rfl
  | cons l ls ih =>
    obtain ⟨hl, hls⟩ := List.forall_mem_cons.mp h
    rw [List.flatMap_cons, List.append_assoc, List.append_assoc, List.singleton_append, lines_append_newline hl,
      ih hls, List.cons_append]

theorem isLineEnd_eq_false_of_not_isBlank {c : Char} (h : isBlank c = false) : isLineEnd c = false := by
  simp only [isBlank, Bool.or_eq_false_iff, Bool.and_eq_false_iff, decide_eq_false_iff_not] at h
  simp only [isLineEnd, Bool.or_eq_false_iff, Bool.and_eq_false_iff, decide_eq_false_iff_not]
  omega

end Text

namespace Source

/-- A small letter and what belongs to its word. -/
inductive IsTagName : Text → Prop
  | mk {c : Char} {t : Text} (hc : 'a' ≤ c ∧ c ≤ 'z') (ht : ∀ d ∈ t, Text.isWord d = true) : IsTagName (c :: t)

instance : (t : Text) → Decidable (IsTagName t)
  | [] => isFalse (nomatch ·)
  | c :: t => decidable_of_iff (('a' ≤ c ∧ c ≤ 'z') ∧ t.all Text.isWord = true)
    ⟨fun h => .mk h.1 (by simpa using h.2), fun ⟨hc, ht⟩ => ⟨hc, by simpa using ht⟩⟩

/-- Blanks aside, the line begins with an at sign and the name of a tag, and nothing or a blank follows. -/
def LooksLikeTag (l : Text) : Prop :=
  ∃ name rest, IsTagName name ∧ Text.trim l = '@' :: (name ++ rest) ∧ ∀ c ∈ rest.head?, Text.isBlank c = true

namespace DocComment

/-- The texts of one tag, of texts with their tags. -/
def textsOf (name : Text) (es : List (Text × Text)) : List Text := (es.filter (·.1 = name)).map Prod.snd

/-- Texts that are put under their tags one after the other. -/
def byTag (es : List (Text × Text)) : Keyed Text (List Text) := es.foldl (fun tags e => addTag tags e.1 e.2) []

theorem byTag_append_singleton (es : List (Text × Text)) (e : Text × Text) :
    byTag (es ++ [e]) = addTag (byTag es) e.1 e.2 := by
  rw [byTag, List.foldl_append]
  rfl

theorem keys_byTag (es : List (Text × Text)) : Keyed.keys (byTag es) = fresh id [] (es.map Prod.fst) := by
  induction es using List.reverseRecOn with
  | nil => rfl
  | append_singleton es e ih =>
    rw [byTag_append_singleton, List.map_append]
    exact Keyed.keys_put_of_fresh ih e.1 _

theorem nodup_keys_byTag (es : List (Text × Text)) : (Keyed.keys (byTag es)).Nodup := by
  rw [keys_byTag]
  simpa using nodup_keys_fresh id [] (es.map Prod.fst)

theorem getD_byTag (name : Text) (es : List (Text × Text)) : ((byTag es).get? name).getD [] = textsOf name es := by
  induction es using List.reverseRecOn with
  | nil => rfl
  | append_singleton es e ih =>
    rw [byTag_append_singleton, addTag, textsOf, List.filter_append, List.map_append, ← textsOf]
    by_cases htag : e.1 = name
    · subst htag
      rw [Keyed.lookup_put_self, ih]
      simp
    · rw [Keyed.lookup_put_of_ne (Ne.symm htag), ih]
      simp [htag]

theorem isDoc_iff {t : Text} : isDoc t = true ↔ ∃ inside, t = "/**".toList ++ (inside ++ "*/".toList) := by
  rw [isDoc, Bool.and_eq_true, Bool.and_eq_true, Text.dropStop?, List.isSome_isSuffixOf?_eq_isSuffixOf,
    List.isSuffixOf_iff_suffix, decide_eq_true_eq, Option.isSome_iff_exists]
  constructor
  · intro ⟨⟨⟨r, hr⟩, hstop⟩, hlength⟩
    have ht : t = "/**".toList ++ r := Text.dropStart?_eq_some_iff.mp hr
    have hroom : "*/".toList.length ≤ r.length := by
      rw [ht, List.length_append] at hlength
      change 3 + r.length > 4 at hlength
      change 2 ≤ r.length
      omega
    have hr : r <:+ t := ⟨_, ht.symm⟩
    obtain ⟨inside, hinside⟩ := List.suffix_of_suffix_length_le hstop hr hroom
    exact ⟨inside, by rw [hinside, ht]⟩
  · rintro ⟨inside, rfl⟩
    refine ⟨⟨⟨inside ++ "*/".toList, Text.dropStart?_eq_some_iff.mpr rfl⟩, ?_⟩, ?_⟩
    · rw [← List.append_assoc]
      exact List.suffix_append _ _
    · simp

theorem take_inside (inside : Text) :
    let t := "/**".toList ++ (inside ++ "*/".toList)
    (t.drop 3).take (t.length - 5) = inside := by
  intro t
  have hlength : t.length - 5 = inside.length := by simp [t]
  have hdrop : t.drop 3 = inside ++ "*/".toList := rfl
  rw [hlength, hdrop, List.take_left]

/-- The texts of the sections, each under its tag. -/
def tagsOf (parts : List Section) : Keyed Text (List Text) :=
  parts.foldl (fun tags s => match s.1 with
    | some name => addTag tags name (body s.2)
    | none => tags) []

/-- A comment says what its sections say. -/
theorem parse_of_sections {t inside : Text} {opening : List Text} {parts : List Section}
    (ht : Text.trim t = "/**".toList ++ (inside ++ "*/".toList))
    (hsections : sections ((Text.lines inside).map stripLine) = (none, opening) :: parts)
    (htagged : parts.filter (·.1.isNone) = []) :
    parse t = some {
      description := body opening
      examples := (((tagsOf parts).get? "example".toList).getD []).filter (! ·.isEmpty)
      tags := tagsOf parts } := by
  have hdoc : isDoc (Text.trim t) = true := isDoc_iff.mpr ⟨inside, ht⟩
  unfold parse
  dsimp only
  rw [hdoc, ht, take_inside, hsections, List.filter_cons_of_pos (by rfl), htagged, List.flatMap_cons,
    List.flatMap_nil, List.append_nil, List.foldl_cons]
  rfl

end DocComment

namespace Comment

/-- The lines of a section as one text; a section may have nothing behind its tag. -/
def sectionText (first : Text) (more : List Text) : Text :=
  Text.join "\n" ((if first.isEmpty then [] else [first]) ++ more)

/-- A section of a comment: its tag, the text behind it, and the lines below. -/
structure Block where
  tag : Text
  gap : Text := [' ']
  first : Text
  more : List Text
  isTagName : IsTagName tag := by decide
  gap_blank : ∀ c ∈ gap, Text.isBlank c = true ∧ Text.isLineEnd c = false := by simp [Text.isBlank, Text.isLineEnd]
  gap_ne_nil : first ≠ [] → gap ≠ [] := by decide
  first_isLine : Text.IsLine first := by decide
  more_isLine : ∀ l ∈ more, Text.IsLine l := by decide
  more_free : ∀ l ∈ more, ¬ LooksLikeTag l := by decide
  trim_text : Text.trim (sectionText first more) = sectionText first more := by decide

namespace Block

def text (b : Block) : Text := sectionText b.first b.more

/-- The line with the tag. -/
def head (b : Block) : Text := '@' :: (b.tag ++ (b.gap ++ b.first))

end Block

end Comment

/-- A comment as it is written: the lines of the description, and the sections. -/
structure Comment where
  description : List Text
  blocks : List Comment.Block
  description_isLine : ∀ l ∈ description, Text.IsLine l := by decide
  description_free : ∀ l ∈ description, ¬ LooksLikeTag l := by decide
  trim_description : Text.trim (Text.join "\n" description) = Text.join "\n" description := by decide

namespace Comment

open DocComment

def lines (c : Comment) : List Text := c.description ++ c.blocks.flatMap fun b => b.head :: b.more

/-- The comment with a star in front of each line. -/
def text (c : Comment) : Text :=
  "/**\n".toList ++ ((c.lines.map (" * ".toList ++ ·)).flatMap (· ++ ['\n']) ++ " */".toList)

/-- The texts of the sections under a tag. -/
def textsUnder (name : Text) (bs : List Block) : List Text := (bs.filter (·.tag = name)).map Block.text

/-- What the comment says. -/
def documentation (c : Comment) : DocComment where
  description := Text.join "\n" c.description
  examples := (textsUnder "example" c.blocks).filter (! ·.isEmpty)
  tags := (fresh id [] (c.blocks.map Block.tag)).map fun name => (name, textsUnder name c.blocks)

/-- The star goes with the blank behind it, and only the line itself is left. -/
theorem stripLine_star (l : Text) : stripLine (" * ".toList ++ l) = Text.trimRight l := by
  have hleft : Text.trimLeft (" * ".toList ++ l) = ['*', ' '] ++ l := rfl
  unfold stripLine
  dsimp only
  by_cases hblank : Text.trimRight l = []
  · have hall : ∀ c ∈ [' '] ++ l, Text.isBlank c = true := by
      have hl : ∀ c ∈ l, Text.isBlank c = true := by simpa [Text.trimRight] using hblank
      exact List.forall_mem_cons.mpr ⟨rfl, hl⟩
    have htrim : Text.trim (" * ".toList ++ l) = ['*'] := by
      rw [Text.trim, hleft]
      exact Text.trimRight_append_blank hall ['*']
    rw [htrim, hblank]
    rfl
  · have htrim : Text.trim (" * ".toList ++ l) = ['*', ' '] ++ Text.trimRight l := by
      rw [Text.trim, hleft, Text.trimRight_append hblank]
    rw [htrim]
    exact Text.trimRight_trimRight l

theorem tag?_eq_some {l name rest : Text} (hname : IsTagName name) (hl : Text.trim l = '@' :: (name ++ rest))
    (hrest : ∀ c ∈ rest.head?, Text.isBlank c = true) : tag? l = some (name, Text.trimLeft rest) := by
  obtain ⟨hc, ht⟩ := hname
  next c t =>
  have hend : ∀ d ∈ rest.head?, Text.isWord d = false := fun d hd => Text.isWord_eq_false_of_isBlank (hrest d hd)
  have hsmall : (decide ('a' ≤ c) && decide (c ≤ 'z')) = true := by simpa using hc
  rw [List.cons_append] at hl
  simp only [tag?, hl, hsmall, Text.takeWhile_append ht hend, Text.dropWhile_append ht hend]
  cases rest with
  | nil => rfl
  | cons b r =>
    have hb : Text.isBlank b = true := hrest b rfl
    simp [hb, Text.trimLeft]

/-- What is read as a tag is the name of one behind an at sign, and what follows after blanks. -/
theorem exists_rest_of_tag? {l name first : Text} (h : tag? l = some (name, first)) :
    IsTagName name ∧ ∃ rest, Text.trim l = '@' :: (name ++ rest) ∧ (∀ c ∈ rest.head?, Text.isBlank c = true) ∧
      first = Text.trimLeft rest := by
  unfold tag? at h
  split at h
  · next c t hl =>
    dsimp only at h
    split at h
    · next hsmall =>
      have hname : IsTagName (c :: t.takeWhile Text.isWord) :=
        .mk (by simpa using hsmall) fun d hd => List.mem_takeWhile_imp hd
      have htrim : Text.trim l = '@' :: (c :: t.takeWhile Text.isWord ++ t.dropWhile Text.isWord) := by
        rw [hl, List.cons_append, List.takeWhile_append_dropWhile]
      split at h
      · next hrest =>
        obtain ⟨rfl, rfl⟩ := Prod.mk.inj (Option.some.inj h)
        exact ⟨hname, _, htrim, by simp [hrest], by simp [hrest, Text.trimLeft]⟩
      · next b r hrest =>
        split at h
        · next hb =>
          obtain ⟨rfl, rfl⟩ := Prod.mk.inj (Option.some.inj h)
          exact ⟨hname, _, htrim, by simpa [hrest] using hb, by simp [hrest, Text.trimLeft, hb]⟩
        · cases h
    · cases h
  · cases h

theorem looksLikeTag_of_tag? {l name first : Text} (h : tag? l = some (name, first)) : LooksLikeTag l := by
  obtain ⟨hname, rest, hl, hrest, -⟩ := exists_rest_of_tag? h
  exact ⟨name, rest, hname, hl, hrest⟩

theorem isSome_tag?_iff {l : Text} : (tag? l).isSome = true ↔ LooksLikeTag l := by
  constructor
  · intro h
    obtain ⟨⟨name, first⟩, htag⟩ := Option.isSome_iff_exists.mp h
    exact looksLikeTag_of_tag? htag
  · rintro ⟨name, rest, hname, hl, hrest⟩
    rw [tag?_eq_some hname hl hrest]
    rfl

instance (l : Text) : Decidable (LooksLikeTag l) := decidable_of_iff _ isSome_tag?_iff

theorem tag?_eq_none {l : Text} (h : ¬ LooksLikeTag l) : tag? l = none := by
  rw [← isSome_tag?_iff] at h
  simpa using h

theorem isWord_of_isTagName {name : Text} (h : IsTagName name) : ∀ d ∈ name, Text.isWord d = true := by
  obtain ⟨hfirst, ht⟩ := h
  exact List.forall_mem_cons.mpr ⟨Text.isWord_of_small hfirst, ht⟩

theorem trimRight_tag {name : Text} (h : IsTagName name) : Text.trimRight ('@' :: name) = '@' :: name := by
  refine Text.trimRight_eq_self.mpr fun d hd => ?_
  rcases List.mem_cons.mp (List.mem_of_getLast? hd) with rfl | hmem
  · rfl
  · exact Text.isBlank_eq_false_of_isWord (isWord_of_isTagName h d hmem)

theorem isPrefix_sectionText {first : Text} (h : first ≠ []) (more : List Text) : first <+: sectionText first more := by
  have hfirst : first.isEmpty = false := by simpa using h
  rw [sectionText, hfirst]
  cases more with
  | nil => simp [Text.join]
  | cons l ls =>
    refine ⟨"\n".toList ++ Text.join "\n" (l :: ls), ?_⟩
    rw [← List.append_assoc]
    exact (Text.join_cons _ _ (List.cons_ne_nil l ls)).symm

theorem Block.trimLeft_first (b : Block) : Text.trimLeft b.first = b.first := by
  by_cases hfirst : b.first = []
  · rw [hfirst]
    rfl
  · exact Text.trimLeft_of_prefix (isPrefix_sectionText hfirst b.more) (Text.trimLeft_of_trim b.trim_text)

theorem tag?_head (b : Block) : tag? (Text.trimRight b.head) = some (b.tag, b.first) := by
  have hgap : ∀ c ∈ b.gap, Text.isBlank c = true := fun c hc => (b.gap_blank c hc).1
  have htrim : Text.trim (Text.trimRight b.head) = '@' :: (b.tag ++ Text.trimRight (b.gap ++ b.first)) := by
    have hright : Text.trimRight b.head = '@' :: (b.tag ++ Text.trimRight (b.gap ++ b.first)) :=
      Text.trimRight_append_of_self (trimRight_tag b.isTagName) (b.gap ++ b.first)
    have hleft : Text.trimLeft (Text.trimRight b.head) = Text.trimRight b.head := by
      rw [hright]
      rfl
    rw [Text.trim, hleft, Text.trimRight_trimRight, hright]
  by_cases hfirst : b.first = []
  · have hrest : Text.trimRight (b.gap ++ b.first) = [] := by
      rw [hfirst, List.append_nil, ← List.nil_append b.gap, Text.trimRight_append_blank hgap]
      rfl
    rw [hrest] at htrim
    rw [tag?_eq_some b.isTagName htrim (by simp), hfirst]
    rfl
  · have hrest : Text.trimRight (b.gap ++ b.first) = b.gap ++ b.first := by
      have hne : Text.trimRight b.first ≠ [] := by rwa [b.first_isLine.trimmed]
      rw [Text.trimRight_append hne, b.first_isLine.trimmed]
    have hhead : ∀ c ∈ (b.gap ++ b.first).head?, Text.isBlank c = true := by
      intro c hc
      rw [List.head?_append_of_ne_nil _ (b.gap_ne_nil hfirst)] at hc
      exact hgap c (List.mem_of_mem_head? hc)
    rw [hrest] at htrim
    rw [tag?_eq_some b.isTagName htrim hhead, Text.trimLeft_blank_append hgap, b.trimLeft_first]

/-- Lines without tags go to the section that is open above what follows them. -/
theorem sections_append {ls ls' rest : List Text} {more : List Section} (hfree : ∀ l ∈ ls, tag? l = none)
    (h : sections ls' = (none, rest) :: more) : sections (ls ++ ls') = (none, ls ++ rest) :: more := by
  induction ls with
  | nil => exact h
  | cons l ls ih =>
    obtain ⟨hl, hls⟩ := List.forall_mem_cons.mp hfree
    have hrest := ih hls
    unfold sections at hrest ⊢
    rw [List.cons_append, List.foldr_cons, hrest]
    simp [sections.step, hl]

theorem sections_cons_tag {l name first : Text} {ls rest : List Text} {more : List Section}
    (htag : tag? l = some (name, first)) (h : sections ls = (none, rest) :: more) :
    sections (l :: ls) = (none, []) :: (some name, (if first.isEmpty then [] else [first]) ++ rest) :: more := by
  unfold sections at h ⊢
  rw [List.foldr_cons, h]
  simp [sections.step, htag]

/-- The last line of a comment, which is empty, counts to its last section. -/
def closing : List Block → List Text
  | [] => [[]]
  | _ :: _ => []

/-- The sections as they are read, the lines of each with what is left of the comment's end. -/
def tagged : List Block → List Section
  | [] => []
  | b :: bs => (some b.tag, (if b.first.isEmpty then [] else [b.first]) ++ (b.more ++ closing bs)) :: tagged bs

theorem sections_blocks (bs : List Block) :
    sections ((bs.flatMap fun b => Text.trimRight b.head :: b.more) ++ [[]]) = (none, closing bs) :: tagged bs := by
  -- The sections below come out first, and the line with the tag above them closes one off.
  induction bs with
  | nil => rfl
  | cons b bs ih =>
    have hfree : ∀ l ∈ b.more, tag? l = none := fun l hl => tag?_eq_none (b.more_free l hl)
    rw [List.flatMap_cons, List.append_assoc, List.cons_append]
    exact sections_cons_tag (tag?_head b) (sections_append hfree ih)

theorem isBlank_separator : ∀ c ∈ "\n".toList, Text.isBlank c = true := by
  intro c hc
  obtain rfl : c = '\n' := List.mem_singleton.mp hc
  rfl

/-- The first line of a comment, which is empty, is not seen in the description. -/
theorem body_nil_cons (ls : List Text) : body ([] :: ls) = body ls := by
  cases ls with
  | nil => rfl
  | cons l ls =>
    rw [body, Text.join_cons _ _ (List.cons_ne_nil l ls), List.nil_append]
    exact Text.trim_blank_append isBlank_separator _

theorem body_append_closing (ls : List Text) (bs : List Block) : body (ls ++ closing bs) = body ls := by
  cases bs with
  | cons b bs => rw [closing, List.append_nil]
  | nil =>
    by_cases hls : ls = []
    · rw [hls]
      rfl
    · have hlast : Text.join "\n" [[]] = [] := rfl
      rw [body, closing, Text.join_append hls (List.cons_ne_nil [] []), hlast, List.append_nil]
      exact Text.trim_append_blank isBlank_separator _

theorem body_section (b : Block) (bs : List Block) :
    body ((if b.first.isEmpty then [] else [b.first]) ++ (b.more ++ closing bs)) = b.text := by
  rw [← List.append_assoc, body_append_closing]
  exact b.trim_text

/-- The texts of the sections, each under its tag. -/
def tagTexts (bs : List Block) : Keyed Text (List Text) := bs.foldl (fun tags b => addTag tags b.tag b.text) []

theorem tagsOf_tagged (bs : List Block) : tagsOf (tagged bs) = tagTexts bs := by
  have hfold (tags : Keyed Text (List Text)) : (tagged bs).foldl (fun tags s => match s.1 with
      | some name => addTag tags name (body s.2)
      | none => tags) tags = bs.foldl (fun tags b => addTag tags b.tag b.text) tags := by
    induction bs generalizing tags with
    | nil => rfl
    | cons b bs ih =>
      rw [tagged, List.foldl_cons, List.foldl_cons, ← body_section b bs]
      exact ih _
  exact hfold []

theorem tagTexts_eq_byTag (bs : List Block) : tagTexts bs = byTag (bs.map fun b => (b.tag, b.text)) := by
  rw [byTag, List.foldl_map]
  rfl

theorem keys_tagTexts (bs : List Block) : Keyed.keys (tagTexts bs) = fresh id [] (bs.map Block.tag) := by
  rw [tagTexts_eq_byTag, keys_byTag, List.map_map]
  rfl

theorem getD_tagTexts (name : Text) (bs : List Block) :
    ((tagTexts bs).get? name).getD [] = textsUnder name bs := by
  rw [tagTexts_eq_byTag, getD_byTag, textsOf, List.filter_map, List.map_map]
  rfl

theorem tagTexts_eq (bs : List Block) :
    tagTexts bs = (fresh id [] (bs.map Block.tag)).map fun name => (name, textsUnder name bs) := by
  have hnodup : (Keyed.keys (tagTexts bs)).Nodup := by
    rw [tagTexts_eq_byTag]
    exact nodup_keys_byTag _
  rw [Keyed.eq_map_get? hnodup [], keys_tagTexts]
  simp only [getD_tagTexts]

/-- What stands between the opening of a comment and its end. -/
def inside (c : Comment) : Text :=
  ([] :: c.lines.map (" * ".toList ++ ·)).flatMap (· ++ ['\n']) ++ [' ']

theorem text_eq (c : Comment) : c.text = "/**".toList ++ (c.inside ++ "*/".toList) := by
  have hstop : " */".toList = [' '] ++ "*/".toList := rfl
  rw [text, inside, List.flatMap_cons, hstop]
  simp

theorem trim_text (c : Comment) : Text.trim c.text = c.text := by
  have hleft : Text.trimLeft c.text = c.text := by
    rw [text_eq]
    rfl
  have hstop : Text.trimRight "*/".toList = "*/".toList := rfl
  have hne : Text.trimRight "*/".toList ≠ [] := List.cons_ne_nil '*' ['/']
  rw [Text.trim, hleft, text_eq, ← List.append_assoc, Text.trimRight_append hne, hstop]

theorem Block.head_noEnd (b : Block) : ∀ c ∈ b.head, Text.isLineEnd c = false := by
  intro c hc
  rcases List.mem_cons.mp hc with rfl | hc
  · rfl
  rcases List.mem_append.mp hc with hc | hc
  · have hword : Text.isWord c = true := isWord_of_isTagName b.isTagName c hc
    exact Text.isLineEnd_eq_false_of_not_isBlank (Text.isBlank_eq_false_of_isWord hword)
  rcases List.mem_append.mp hc with hc | hc
  · exact (b.gap_blank c hc).2
  · exact b.first_isLine.noEnd c hc

theorem lines_noEnd (c : Comment) : ∀ l ∈ c.lines, ∀ d ∈ l, Text.isLineEnd d = false := by
  intro l hl
  rcases List.mem_append.mp hl with hl | hl
  · exact (c.description_isLine l hl).noEnd
  · obtain ⟨b, -, hl⟩ := List.mem_flatMap.mp hl
    rcases List.mem_cons.mp hl with rfl | hl
    · exact b.head_noEnd
    · exact (b.more_isLine l hl).noEnd

theorem star_noEnd : ∀ c ∈ " * ".toList, Text.isLineEnd c = false := by
  simp [Text.isLineEnd]

theorem lines_inside (c : Comment) :
    Text.lines c.inside = [] :: (c.lines.map (" * ".toList ++ ·) ++ [[' ']]) := by
  have hnoEnd : ∀ l ∈ [] :: c.lines.map (" * ".toList ++ ·), ∀ d ∈ l, Text.isLineEnd d = false := by
    refine List.forall_mem_cons.mpr ⟨by simp, ?_⟩
    intro l hl d hd
    obtain ⟨m, hm, rfl⟩ := List.mem_map.mp hl
    rcases List.mem_append.mp hd with hd | hd
    · exact star_noEnd d hd
    · exact c.lines_noEnd m hm d hd
  exact Text.lines_flatMap hnoEnd [' ']

theorem map_trimRight_lines (c : Comment) :
    c.lines.map Text.trimRight = c.description ++ c.blocks.flatMap fun b => Text.trimRight b.head :: b.more := by
  have hself {ls : List Text} (h : ∀ l ∈ ls, Text.IsLine l) : ls.map Text.trimRight = ls := by
    rw [List.map_congr_left (g := id) fun l hl => (h l hl).trimmed, List.map_id]
  rw [lines, List.map_append, hself c.description_isLine, List.map_flatMap]
  simp only [List.map_cons, hself (Block.more_isLine _)]

theorem map_stripLine_lines (c : Comment) : (Text.lines c.inside).map stripLine =
    ([] :: c.description) ++ ((c.blocks.flatMap fun b => Text.trimRight b.head :: b.more) ++ [[]]) := by
  have hstars : (c.lines.map (" * ".toList ++ ·)).map stripLine = c.lines.map Text.trimRight := by
    rw [List.map_map]
    exact List.map_congr_left fun l _ => stripLine_star l
  have hends : stripLine [] = [] ∧ stripLine [' '] = [] := ⟨rfl, rfl⟩
  rw [lines_inside, List.map_cons, List.map_append, hstars, map_trimRight_lines, List.map_singleton, hends.1, hends.2]
  simp

theorem filter_tagged (bs : List Block) : (tagged bs).filter (·.1.isNone) = [] := by
  induction bs with
  | nil => rfl
  | cons b bs ih => rw [tagged, List.filter_cons_of_neg (by simp), ih]

/-- A written comment says what it was written for: the lines of its description with their blanks inside, and under
each tag, in the order in which the tags come up first, the texts of its sections. -/
theorem parse_text (c : Comment) : DocComment.parse c.text = some c.documentation := by
  have hfree : ∀ l ∈ [] :: c.description, tag? l = none :=
    List.forall_mem_cons.mpr ⟨rfl, fun l hl => tag?_eq_none (c.description_free l hl)⟩
  have hsections : sections ((Text.lines c.inside).map stripLine) =
      (none, ([] :: c.description) ++ closing c.blocks) :: tagged c.blocks := by
    rw [map_stripLine_lines]
    exact sections_append hfree (sections_blocks c.blocks)
  have hdescription : body (([] :: c.description) ++ closing c.blocks) = Text.join "\n" c.description := by
    rw [body_append_closing, body_nil_cons]
    exact c.trim_description
  have htrim : Text.trim c.text = "/**".toList ++ (c.inside ++ "*/".toList) := c.trim_text.trans c.text_eq
  rw [parse_of_sections htrim hsections (filter_tagged c.blocks), tagsOf_tagged, hdescription, getD_tagTexts,
    tagTexts_eq]
  rfl

/-- A star, an at sign and blanks inside lines, a section with nothing behind its tag, an empty one, and a tag that
comes twice. -/
def decorated : Comment where
  description := ["Reads:".toList, [], "  * one".toList]
  blocks := [
    { tag := "example", first := [], more := ["@Get()".toList, "  f()".toList] },
    { tag := "see", first := "g", more := [] },
    { tag := "example", gap := [], first := [], more := [] }]

theorem parse_text_decorated :
    decorated.text =
      "/**\n * Reads:\n * \n *   * one\n * @example \n * @Get()\n *   f()\n * @see g\n * @example\n */".toList ∧
    DocComment.parse decorated.text = some {
      description := "Reads:\n\n  * one"
      examples := ["@Get()\n  f()".toList]
      tags := [("example".toList, ["@Get()\n  f()".toList, []]), ("see".toList, ["g".toList])] } :=
  ⟨rfl, parse_text decorated⟩

end Comment

end Source

end CodeManifest
