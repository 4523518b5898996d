import CodeManifest.Proofs.Files.Names
import CodeManifest.Proofs.Project.Alike
import CodeManifest.Proofs.Text.Blank
import Mathlib

namespace CodeManifest

namespace Files

/-- No character of the text stands for others in a pattern. -/
def IsPlain (t : Text) : Prop := ∀ c ∈ t, c ≠ '*' ∧ c ≠ '?' ∧ c ≠ '['

-- Named here, since the search for an instance would go through all characters instead of those of the text.
instance (t : Text) : Decidable (IsPlain t) := List.decidableBAll (fun c => c ≠ '*' ∧ c ≠ '?' ∧ c ≠ '[') t

theorem Glob.readFor_of_plain {t : Text} (h : IsPlain t) {fuel : Nat} (hfuel : t.length ≤ fuel) :
    readFor fuel t = t.map .literal := by
  induction t generalizing fuel with
  | nil => cases fuel <;> rfl
  | cons c t ih =>
    obtain ⟨⟨hstar, hmark, hset⟩, ht⟩ := List.forall_mem_cons.mp h
    cases fuel with
    | zero => cases hfuel
    | succ fuel =>
      rw [readFor, if_neg hstar, if_neg hmark, if_neg hset, ih ht (Nat.le_of_succ_le_succ hfuel), List.map_cons]

theorem Glob.matches_literals {t x : Text} : «matches» (t.map .literal) x = true ↔ x = t := by
  induction t generalizing x with
  | nil => simp [«matches»]
  | cons c t ih =>
    cases x with
    | nil => simp [«matches»]
    | cons d x =>
      have hstep : «matches» (.literal c :: t.map .literal) (d :: x) =
          (decide (c = d) && «matches» (t.map .literal) x) := rfl
      rw [List.map_cons, hstep, Bool.and_eq_true, ih, decide_eq_true_iff, List.cons_eq_cons, eq_comm]

theorem fits_of_plain {p x : Text} (h : IsPlain p) : fits p x = true ↔ x = p := by
  rw [fits, Glob.ofText, Glob.readFor_of_plain h (Nat.le_refl _), Glob.matches_literals]

theorem fits_eq_false_of_plain {p x : Text} (h : IsPlain p) : fits p x = false ↔ x ≠ p := by
  rw [← Bool.not_eq_true, Ne, not_congr (fits_of_plain h)]

end Files

namespace Text

theorem suffix_join (sep t : Text) (ts : List Text) : t <:+ join sep (ts ++ [t]) := by
  induction ts with
  | nil => exact ⟨[], by simp [join]⟩
  | cons s ts ih =>
    rw [List.cons_append, join_cons sep s (by simp)]
    exact ih.trans (List.suffix_append _ _)

theorem mem_of_mem_join {sep : Text} {c : Char} {ts : List Text} (h : c ∈ join sep ts) :
    c ∈ sep ∨ ∃ t ∈ ts, c ∈ t := by
  induction ts with
  | nil => cases h
  | cons t ts ih =>
    by_cases hts : ts = []
    · subst hts
      exact Or.inr ⟨t, List.mem_cons_self, by simpa [join] using h⟩
    · rw [join_cons sep t hts, List.append_assoc, List.mem_append, List.mem_append] at h
      rcases h with h | h | h
      · exact Or.inr ⟨t, List.mem_cons_self, h⟩
      · exact Or.inl h
      · rcases ih h with hsep | ⟨s, hs, hc⟩
        · exact Or.inl hsep
        · exact Or.inr ⟨s, List.mem_cons_of_mem _ hs, hc⟩

end Text

namespace Path

/-- A relative path of names is written as they are, with slashes between them. -/
theorem render_relative {ns : List Text} (h : ns ≠ []) : render { parts := ns } = Text.join ['/'] ns := by
  rw [render, if_neg (by simp [h])]
  rfl

theorem render_singleton (n : Text) : render { parts := [n] } = n := by
  rw [render_relative (List.cons_ne_nil _ _)]
  simp [Text.join]

theorem render_relative_inj {ns ms : List Text} (hns : ns ≠ []) (hms : ms ≠ []) (hn : ∀ n ∈ ns, '/' ∉ n)
    (hm : ∀ m ∈ ms, '/' ∉ m) : render { parts := ns } = render { parts := ms } ↔ ns = ms := by
  refine ⟨fun h => ?_, fun h => h ▸ rfl⟩
  rw [render_relative hns, render_relative hms] at h
  rw [← Text.split_join hns hn, h, Text.split_join hms hm]

end Path

namespace Project

open Files

/-- A path of a directory below the project, by names without wildcards. -/
structure IsOrdinary (dir : List Text) : Prop where
  ne_nil : dir ≠ []
  names : ∀ n ∈ dir, IsName n
  plain : ∀ n ∈ dir, IsPlain n

instance (dir : List Text) : Decidable (IsOrdinary dir) :=
  decidable_of_iff (dir ≠ [] ∧ (∀ n ∈ dir, IsName n) ∧ ∀ n ∈ dir, IsPlain n)
    ⟨fun h => ⟨h.1, h.2.1, h.2.2⟩, fun h => ⟨h.ne_nil, h.names, h.plain⟩⟩

namespace IsOrdinary

variable {dir : List Text} (h : IsOrdinary dir)

include h

theorem isPlain_render : IsPlain (Path.render { parts := dir }) := by
  intro c hc
  rw [Path.render_relative h.ne_nil] at hc
  rcases Text.mem_of_mem_join hc with hc | ⟨n, hn, hc⟩
  · rw [List.mem_singleton.mp hc]
    decide
  · exact h.plain n hn c hc

theorem render_ne_nil : Path.render { parts := dir } ≠ [] := by
  obtain ⟨n, ns, rfl⟩ := List.exists_cons_of_ne_nil h.ne_nil
  rw [Path.render_relative h.ne_nil]
  exact Text.join_ne_nil (h.names n List.mem_cons_self).ne_nil

/-- No slash stands at the end of the path. -/
theorem rdropWhile_render :
    List.rdropWhile (fun c => decide (c = '/')) (Path.render { parts := dir }) = Path.render { parts := dir } := by
  rw [List.rdropWhile_eq_self_iff]
  intro hne hslash
  obtain ⟨front, n, rfl⟩ := (List.eq_nil_or_concat' dir).resolve_left h.ne_nil
  have hn := h.names n (by simp)
  obtain ⟨before, hsplit⟩ := Text.suffix_join ['/'] n front
  have hlast : (Path.render { parts := front ++ [n] }).getLast hne = n.getLast hn.ne_nil := by
    have hrender : Path.render { parts := front ++ [n] } = before ++ n := by
      rw [Path.render_relative h.ne_nil, hsplit]
    simp only [hrender]
    exact List.getLast_append_of_ne_nil _ hn.ne_nil
  rw [hlast] at hslash
  exact hn.noSlash (of_decide_eq_true hslash ▸ List.getLast_mem hn.ne_nil)

end IsOrdinary

/-- A project lists a path to be left out: among the patterns that it is given, or in a line that says the path,
with or without a slash at the end. A line with blanks around it says the text between them, and one that begins
with a hash nothing. -/
inductive Ignore.Lists (further : List Text) (t path : Text) : Prop
  | given (h : path ∈ further)
  | line (h : path ∈ Text.lines t) (htrim : Text.trim path = path) (hhash : path.head? ≠ some '#')
  | slashed (h : path ++ ['/'] ∈ Text.lines t) (htrim : Text.trimLeft path = path) (hhash : path.head? ≠ some '#')

theorem Ignore.ofLine?_of_trim {line t : Text} (h : Text.trim line = t) (hne : t ≠ [])
    (hhash : t.head? ≠ some '#') : ofLine? line = some (List.rdropWhile (fun c => decide (c = '/')) t) := by
  obtain ⟨c, t, rfl⟩ := List.exists_cons_of_ne_nil hne
  unfold ofLine?
  rw [h]
  split
  · next heq => cases heq
  · next heq => exact absurd (congrArg List.head? heq) hhash
  · rfl

theorem IsOrdinary.mem_of_lists {dir further : List Text} {t : Text} (h : IsOrdinary dir)
    (hlists : Ignore.Lists further t (Path.render { parts := dir })) :
    Path.render { parts := dir } ∈ further ++ Ignore.ofText t := by
  have hne := h.render_ne_nil
  have hread {line : Text} (hline : line ∈ Text.lines t)
      (hpattern : Ignore.ofLine? line = some (Path.render { parts := dir })) :
      Path.render { parts := dir } ∈ further ++ Ignore.ofText t :=
    List.mem_append_right _ (List.mem_filterMap.mpr ⟨line, hline, hpattern⟩)
  cases hlists with
  | given hgiven => exact List.mem_append_left _ hgiven
  | line hline htrim hhash =>
    refine hread hline ?_
    rw [Ignore.ofLine?_of_trim htrim hne hhash, h.rdropWhile_render]
  | slashed hline htrim hhash =>
    refine hread hline ?_
    have hhead : (Path.render { parts := dir } ++ ['/']).head? = (Path.render { parts := dir }).head? :=
      List.head?_append_of_ne_nil _ hne
    have hleft : Text.trimLeft (Path.render { parts := dir } ++ ['/']) = Path.render { parts := dir } ++ ['/'] := by
      rw [Text.trimLeft_eq_self] at htrim ⊢
      rwa [hhead]
    have htrim : Text.trim (Path.render { parts := dir } ++ ['/']) = Path.render { parts := dir } ++ ['/'] := by
      rw [Text.trim, hleft]
      exact List.rdropWhile_concat_neg _ _ _ (by decide)
    rw [Ignore.ofLine?_of_trim htrim (by simp) (hhead ▸ hhash), List.rdropWhile_concat_pos _ _ _ (by simp),
      h.rdropWhile_render]

/-- The names that lead to a file are in reach of a directory that is listed: they are the path itself, or the path
is one of them. -/
def Reaches (dir names : List Text) : Prop := names = dir ∨ ∃ n ∈ names, dir = [n]

/-- The same with one pattern less. -/
def Wanted.without (w : Wanted) (pattern : Text) : Wanted := { w with ignored := w.ignored.filter (· ≠ pattern) }

theorem Wanted.forall_ignored {w : Wanted} {pattern : Text} (h : pattern ∈ w.ignored) {P : Text → Prop} :
    (∀ q ∈ w.ignored, P q) ↔ (∀ q ∈ (w.without pattern).ignored, P q) ∧ P pattern := by
  constructor
  · intro hall
    exact ⟨fun q hq => hall q (List.mem_of_mem_filter hq), hall pattern h⟩
  · rintro ⟨hothers, hpattern⟩ q hq
    by_cases heq : q = pattern
    · exact heq ▸ hpattern
    · exact hothers q (List.mem_filter.mpr ⟨hq, decide_eq_true heq⟩)

section Pattern

variable {dir : List Text} {p : Place} {w : Wanted} {tree : Entry} {above : List Text} {name : Text}

theorem IsOrdinary.fits_eq_false_iff (h : IsOrdinary dir) {names : List Text} (hne : names ≠ [])
    (hnames : ∀ n ∈ names, '/' ∉ n) :
    fits (Path.render { parts := dir }) (Path.render { parts := names }) = false ↔ names ≠ dir := by
  rw [fits_eq_false_of_plain h.isPlain_render, Ne,
    not_congr (Path.render_relative_inj hne h.ne_nil hnames fun n hn => (h.names n hn).noSlash)]

theorem IsOrdinary.fits_name_eq_false_iff (h : IsOrdinary dir) {n : Text} (hn : '/' ∉ n) :
    fits (Path.render { parts := dir }) n = false ↔ dir ≠ [n] := by
  have hiff := h.fits_eq_false_iff (List.cons_ne_nil n []) (List.forall_mem_singleton.mpr hn)
  rwa [Path.render_singleton, ne_comm] at hiff

theorem IsOrdinary.opens_iff (h : IsOrdinary dir) (hlisted : Path.render { parts := dir } ∈ w.ignored) {n : Text}
    (hn : '/' ∉ n) :
    Opens w.ignored n ↔ Opens (w.without (Path.render { parts := dir })).ignored n ∧ dir ≠ [n] := by
  constructor
  · rintro ⟨hvisible, hunlisted, hunmatched⟩
    obtain ⟨hothers, hdir⟩ := (Wanted.forall_ignored hlisted).mp hunmatched
    exact ⟨⟨hvisible, fun hmem => hunlisted (List.mem_of_mem_filter hmem), hothers⟩,
      (h.fits_name_eq_false_iff hn).mp hdir⟩
  · rintro ⟨⟨hvisible, hunlisted, hunmatched⟩, hdir⟩
    have hfits := (h.fits_name_eq_false_iff hn).mpr hdir
    refine ⟨hvisible, fun hmem => hunlisted (List.mem_filter.mpr ⟨hmem, decide_eq_true ?_⟩),
      (Wanted.forall_ignored hlisted).mpr ⟨hunmatched, hfits⟩⟩
    exact (fits_eq_false_of_plain h.isPlain_render).mp hfits

/-- A listed directory keeps out of what is looked for without it those files that are in its reach. -/
theorem IsOrdinary.selects_iff (h : IsOrdinary dir) (hlisted : Path.render { parts := dir } ∈ w.ignored)
    (htree : ∀ ns e, tree.at? ns = some e → ∀ n ∈ ns, IsName n) :
    Selects p w tree above name ↔
      Selects p (w.without (Path.render { parts := dir })) tree above name ∧ ¬ Reaches dir (above ++ [name]) := by
  have hslash (hreached : ∃ e, tree.at? (above ++ [name]) = some e ∧ e.isDirectory = false) :
      ∀ n ∈ above ++ [name], '/' ∉ n := by
    obtain ⟨e, he, -⟩ := hreached
    exact fun n hn => (htree _ e he n hn).noSlash
  constructor
  · intro hs
    have hnames := hslash hs.reached
    have hopens : ∀ c ∈ above, Opens _ c ∧ dir ≠ [c] := fun c hc =>
      (h.opens_iff hlisted (hnames c (List.mem_append_left _ hc))).mp (hs.opens c hc)
    obtain ⟨hothers, hname, hpath⟩ := (Wanted.forall_ignored hlisted).mp hs.unmatched
    refine ⟨⟨hs.reached, fun c hc => (hopens c hc).1, hs.visible, hs.extension, hs.unexcluded, hothers,
      hs.size⟩, ?_⟩
    rintro (hself | ⟨n, hn, hdir⟩)
    · exact (h.fits_eq_false_iff (by simp) hnames).mp hpath hself
    · rcases List.mem_append.mp hn with hn | hn
      · exact (hopens n hn).2 hdir
      · rw [List.mem_singleton.mp hn] at hdir
        exact (h.fits_name_eq_false_iff (hnames name (by simp))).mp hname hdir
  · rintro ⟨hs, hreach⟩
    have hnames := hslash hs.reached
    have hdir {n : Text} (hn : n ∈ above ++ [name]) : dir ≠ [n] := fun hdir => hreach (Or.inr ⟨n, hn, hdir⟩)
    refine ⟨hs.reached, fun c hc => ?_, hs.visible, hs.extension, hs.unexcluded, ?_, hs.size⟩
    · have hc' := List.mem_append_left [name] hc
      exact (h.opens_iff hlisted (hnames c hc')).mpr ⟨hs.opens c hc, hdir hc'⟩
    · refine (Wanted.forall_ignored hlisted).mpr ⟨hs.unmatched, ?_, ?_⟩
      · exact (h.fits_name_eq_false_iff (hnames name (by simp))).mpr (hdir (by simp))
      · exact (h.fits_eq_false_iff (by simp) hnames).mpr fun hself => hreach (Or.inl hself)

end Pattern

/-- What a walk looks for in a project that lists the patterns in the text `t`. -/
def wanted (extensions further : List Text) (t : Text) (directories excluded : List Text) : Wanted where
  extensions := extensions.map Text.lower
  ignored := Ignore.standard ++ further ++ Ignore.ofText t ++ directories
  excluded := excluded

/-- The files are those that are selected without the pattern of a directory and out of its reach. -/
def FindsBeyond (p : Place) (w : Wanted) (tree : Entry) (dir : List Text) (files : List Path) : Prop :=
  ∀ q, q ∈ files ↔ ∃ above name, q = { parts := above ++ [name] } ∧
    Selects p (w.without (Path.render { parts := dir })) tree above name ∧ ¬ Reaches dir (above ++ [name])

variable {d : Disk} {root : Path} {es : List (Text × Entry)} {t : Text} {dir further : List Text}

theorem exists_hasTree_of_isProper (hproper : d.IsProper) (hroot : d.entry root = .ok (.directory es)) :
    ∃ place, d.resolved root = .ok place ∧ Place.HasTree ⟨d, place⟩ es := by
  obtain ⟨ns, -, -, hat⟩ := Disk.resolved_of_entry (Disk.root_ne_link hroot fun t => Entry.noConfusion) hroot
  exact exists_hasTree (hproper.tree.at? hat) hroot

/-- What leads to an entry of the project are names. -/
theorem Place.HasTree.names_of_at? {place : Path} (hp : Place.HasTree ⟨d, place⟩ es) (hproper : d.IsProper)
    (ns : List Text) (e : Entry) (h : Entry.at? (.directory es) ns = some e) : ∀ n ∈ ns, IsName n := by
  intro n hn
  refine hproper.names (place.parts ++ ns) e ?_ n (List.mem_append_right _ hn)
  rw [hp.at?_append]
  exact h

theorem exists_walk_beyond {place : Path} (hresolved : d.resolved root = .ok place)
    (hp : Place.HasTree ⟨d, place⟩ es) (hproper : d.IsProper) (hown : Ignore.HasText d root t)
    (hdir : IsOrdinary dir) (hlists : Ignore.Lists further t (Path.render { parts := dir }))
    (extensions directories excluded : List Text) :
    ∃ vs, walk d root extensions further directories excluded = .ok vs ∧ ∀ what,
      FindsBeyond ⟨d, place⟩ (wanted extensions further t directories excluded) (.directory es) dir
        (Found.ofVisits root what vs).files := by
  obtain ⟨vs, hvs, hmem, -⟩ := exists_walk hresolved hp hown extensions further directories excluded
  have hlisted : Path.render { parts := dir } ∈ (wanted extensions further t directories excluded).ignored := by
    have hpattern := hdir.mem_of_lists hlists
    simp only [wanted, List.mem_append] at hpattern ⊢
    tauto
  refine ⟨vs, hvs, fun what q => ?_⟩
  rw [Found.mem_files_ofVisits]
  constructor
  · rintro ⟨ns, hns, rfl⟩
    obtain ⟨above, name, rfl, hs⟩ := (hmem ns).mp hns
    exact ⟨above, name, rfl, (hdir.selects_iff hlisted (hp.names_of_at? hproper)).mp hs⟩
  · rintro ⟨above, name, rfl, hs⟩
    exact ⟨_, (hmem _).mpr ⟨above, name, rfl, (hdir.selects_iff hlisted (hp.names_of_at? hproper)).mpr hs⟩, rfl⟩

theorem FindsBeyond.not_below {p : Place} {w : Wanted} {tree : Entry} {n : Text} {files : List Path}
    (h : FindsBeyond p w tree [n] files) {q : Path} (hq : q ∈ files) : ¬ [n] <+: q.parts := by
  intro hbelow
  obtain ⟨above, name, rfl, -, hreach⟩ := (h q).mp hq
  exact hreach (Or.inr ⟨n, hbelow.subset (List.mem_singleton_self n), rfl⟩)

/-- A project lists the path of a directory. Of the files that are found without that pattern, those are kept out
that are in its reach: with one name all that are in a directory so named, wherever that is, and with several none
that are in the directory, since directories are looked at by their names alone. -/
theorem listed_directory (hproper : d.IsProper) (hroot : d.entry root = .ok (.directory es))
    (hown : Ignore.HasText d root t) (hdir : IsOrdinary dir)
    (hlists : Ignore.Lists further t (Path.render { parts := dir })) (extensions : List Text) :
    ∃ place sources sqlFiles, d.resolved root = .ok place ∧
      findSources d root extensions further = .ok sources ∧ findSql d root further = .ok sqlFiles ∧
      FindsBeyond ⟨d, place⟩ (wanted extensions further t [] excludedSources) (.directory es) dir sources.files ∧
      FindsBeyond ⟨d, place⟩ (wanted [".sql"] further t excludedSqlDirectories []) (.directory es) dir
        sqlFiles.files ∧
      (∀ n, dir = [n] → ∀ q ∈ sources.files ++ sqlFiles.files, ¬ dir <+: q.parts) := by
  obtain ⟨place, hresolved, hp⟩ := exists_hasTree_of_isProper hproper hroot
  have hwalk := exists_walk_beyond hresolved hp hproper hown hdir hlists
  obtain ⟨us, hus, hsources⟩ := hwalk extensions [] excludedSources
  obtain ⟨vs, hvs, hsqlFiles⟩ := hwalk [".sql"] excludedSqlDirectories []
  refine ⟨place, _, _, hresolved, findSources_of_walk hus, findSql_of_walk hvs, hsources "source", hsqlFiles "SQL", ?_⟩
  rintro n rfl q hq
  rcases List.mem_append.mp hq with hq | hq
  · exact (hsources "source").not_below hq
  · exact (hsqlFiles "SQL").not_below hq

/-- A project that lists patterns and has a directory in a directory. -/
def nestedTree (patterns : ByteArray) : List (Text × Entry) := [
  (".mcpgenignore", .file patterns 0),
  ("src", .directory [("b.ts", .file .empty 0), ("generated", .directory [("a.ts", .file .empty 0)])])]

def nestedDisk (patterns : ByteArray) : Disk := { root := .directory (nestedTree patterns) }

theorem nestedDisk_isProper (patterns : ByteArray) : (nestedDisk patterns).IsProper := by
  have hgenerated : Disk.IsProper { root := .directory [("a.ts", .file .empty 0)] } :=
    Disk.isProper_directory (by decide) (List.forall_mem_singleton.mpr ⟨by decide, Disk.isProper_file _ _⟩)
  have hsrc : Disk.IsProper
      { root := .directory [("b.ts", .file .empty 0), ("generated", .directory [("a.ts", .file .empty 0)])] } :=
    Disk.isProper_directory (by decide) (List.forall_mem_cons.mpr ⟨⟨by decide, Disk.isProper_file _ _⟩,
      List.forall_mem_singleton.mpr ⟨by decide, hgenerated⟩⟩)
  have hkeys : (Keyed.keys (nestedTree patterns)).Nodup := by
    show [".mcpgenignore".toList, "src".toList].Nodup
    decide
  have hname : IsName ".mcpgenignore" := by decide
  exact Disk.isProper_directory hkeys (List.forall_mem_cons.mpr ⟨⟨hname, Disk.isProper_file _ _⟩,
    List.forall_mem_singleton.mpr ⟨by decide, hsrc⟩⟩)

theorem nestedDisk_entry (patterns : ByteArray) :
    (nestedDisk patterns).entry ⟨['/'], []⟩ = .ok (.directory (nestedTree patterns)) := by
  cbv

theorem nestedDisk_hasText {patterns : ByteArray} {u t : Text} (h : Text.ofUtf8? patterns.toList = some u)
    (hlines : Text.unifyLineEnds u = t) : Ignore.HasText (nestedDisk patterns) ⟨['/'], []⟩ t := by
  have hread : (nestedDisk patterns).read (Path.child ⟨['/'], []⟩ Ignore.fileName) = .ok (patterns, 0) := by cbv
  have hthere : (nestedDisk patterns).isThere (Path.child ⟨['/'], []⟩ Ignore.fileName) = true := by cbv
  unfold Ignore.HasText
  rw [if_pos hthere, Disk.readText, hread]
  simp only [h, hlines]

theorem nestedDisk_resolved (patterns : ByteArray) :
    (nestedDisk patterns).resolved ⟨['/'], []⟩ = .ok ⟨['/'], []⟩ := by
  cbv

/-- A file without content below the directory is selected where its directories are entered and nothing fits it. -/
theorem nestedDisk_selects {patterns : ByteArray} {w : Wanted} {above : List Text} {name : Text}
    (hat : Entry.at? (.directory (nestedTree patterns)) (above ++ [name]) = some (.file .empty 0))
    (hopens : ∀ c ∈ above, w.prunes c = false) (htakes : w.takes above name = true) :
    Selects ⟨nestedDisk patterns, ⟨['/'], []⟩⟩ w (.directory (nestedTree patterns)) above name := by
  obtain ⟨hvisible, hextension, hexcluded, hunmatched⟩ := takes_eq_true.mp htakes
  have hopened (c : Text) (hc : c ∈ above) : Opens w.ignored c := prunes_eq_false.mp (hopens c hc)
  obtain ⟨place, hresolved, hp⟩ := exists_hasTree_of_isProper (nestedDisk_isProper _) (nestedDisk_entry patterns)
  obtain rfl : ⟨['/'], []⟩ = place := Except.ok.inj ((nestedDisk_resolved patterns).symm.trans hresolved)
  refine ⟨⟨_, hat, rfl⟩, hopened, hvisible, hextension, hexcluded, hunmatched, .empty, 0, ?_, by decide⟩
  exact hp.entry_path hat (fun t => Entry.noConfusion) (forward_of_opens hopened hvisible)

theorem listed_directory_generated :
    let d := nestedDisk (Text.toUtf8 "generated/\n")
    let root : Path := ⟨['/'], []⟩
    d.IsProper ∧ d.entry root = .ok (.directory (nestedTree (Text.toUtf8 "generated/\n"))) ∧
      Ignore.HasText d root "generated/\n" ∧ IsOrdinary ["generated"] ∧
      Ignore.Lists [] "generated/\n" (Path.render { parts := ["generated"] }) ∧
      ∃ f, findSources d root [".ts"] [] = .ok f ∧ { parts := ["src", "b.ts"] } ∈ f.files ∧
        { parts := ["src", "generated", "a.ts"] } ∉ f.files := by
  intro d root
  have hutf8 : Text.ofUtf8? (Text.toUtf8 "generated/\n").toList = some "generated/\n".toList := by decide +kernel
  have hown : Ignore.HasText d root "generated/\n" := nestedDisk_hasText hutf8 rfl
  have hdir : IsOrdinary ["generated"] := by decide
  have hlists : Ignore.Lists [] "generated/\n" (Path.render { parts := ["generated"] }) :=
    .slashed (by decide) (by decide) (by decide)
  obtain ⟨place, f, -, hplace, hf, -, hbeyond, -⟩ :=
    listed_directory (nestedDisk_isProper _) (nestedDisk_entry _) hown hdir hlists [".ts"]
  obtain rfl : root = place := Except.ok.inj ((nestedDisk_resolved _).symm.trans hplace)
  refine ⟨nestedDisk_isProper _, nestedDisk_entry _, hown, hdir, hlists, f, hf, ?_, fun hfound => ?_⟩
  · refine (hbeyond _).mpr ⟨["src"], "b.ts", rfl, nestedDisk_selects rfl (by decide) (by decide), ?_⟩
    rintro (h | h) <;> revert h <;> decide
  · obtain ⟨above, name, hpath, -, hreach⟩ := (hbeyond _).mp hfound
    have hmem : "generated".toList ∈ above ++ [name] := (Path.mk.inj hpath).2 ▸ by decide
    exact hreach (Or.inr ⟨"generated", hmem, rfl⟩)

/-- A project lists a directory in a directory, and the file in it is found. -/
theorem nested_found :
    let d := nestedDisk (Text.toUtf8 "src/generated\n")
    let root : Path := ⟨['/'], []⟩
    Ignore.HasText d root "src/generated\n" ∧ IsOrdinary ["src", "generated"] ∧
      Ignore.Lists [] "src/generated\n" (Path.render { parts := ["src", "generated"] }) ∧
      ∃ f, findSources d root [".ts"] [] = .ok f ∧ { parts := ["src", "generated", "a.ts"] } ∈ f.files := by
  intro d root
  have hutf8 : Text.ofUtf8? (Text.toUtf8 "src/generated\n").toList = some "src/generated\n".toList := by decide +kernel
  have hown : Ignore.HasText d root "src/generated\n" := nestedDisk_hasText hutf8 rfl
  obtain ⟨place, hresolved, hp⟩ := exists_hasTree_of_isProper (nestedDisk_isProper _) (nestedDisk_entry _)
  obtain rfl : root = place := Except.ok.inj ((nestedDisk_resolved _).symm.trans hresolved)
  obtain ⟨vs, hvs, hmem, -⟩ := exists_walk hresolved hp hown [".ts"] [] [] excludedSources
  refine ⟨hown, by decide, .line (by decide) (by decide) (by decide), _, findSources_of_walk hvs, ?_⟩
  refine Found.mem_files_ofVisits.mpr ⟨_, (hmem _).mpr ⟨["src", "generated"], "a.ts", rfl, ?_⟩, rfl⟩
  exact nestedDisk_selects rfl (by decide) (by decide)

end Project

end CodeManifest
