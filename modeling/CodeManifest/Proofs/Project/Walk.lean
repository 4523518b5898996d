import CodeManifest.Files.Change
import CodeManifest.Project.Walk
import CodeManifest.Proofs.Files.Room
import CodeManifest.Proofs.Keyed
import CodeManifest.Proofs.Text.Order
import Mathlib

namespace CodeManifest.Project

open Files

/-- A directory that is looked into: its name neither begins with a dot nor is, or fits, a pattern of what is
left out. -/
structure Opens (ignored : List Text) (name : Text) : Prop where
  visible : name.head? ≠ some '.'
  unlisted : name ∉ ignored
  unmatched : ∀ p ∈ ignored, fits p name = false

/-- The test of a file of the tree, at the end of the names `above` and its own. -/
structure Selects (p : Place) (w : Wanted) (tree : Entry) (above : List Text) (name : Text) : Prop where
  /-- no link is entered on the way -/
  reached : ∃ e, tree.at? (above ++ [name]) = some e ∧ e.isDirectory = false
  opens : ∀ c ∈ above, Opens w.ignored c
  visible : name.head? ≠ some '.'
  extension : Text.lower (Path.suffixOf name) ∈ w.extensions
  unexcluded : ∀ q ∈ w.excluded, fits q name = false
  unmatched : ∀ q ∈ w.ignored,
    fits q name = false ∧ fits q (Path.render { parts := above ++ [name] }) = false
  size : ∃ content changed, p.disk.entry (p.path (above ++ [name])) = .ok (.file content changed) ∧
    content.size ≤ maxFileSize

/-- Neither the name of a file that is looked for nor one on the way to it leads back. -/
theorem forward_of_opens {ignored above : List Text} {name : Text} (ha : ∀ c ∈ above, Opens ignored c)
    (hn : name.head? ≠ some '.') : Path.parentName ∉ above ++ [name] := by
  intro hm
  rcases List.mem_append.mp hm with hm | hm
  · exact (ha _ hm).visible rfl
  · rw [← List.mem_singleton.mp hm] at hn
    exact hn rfl

theorem prunes_eq_false {w : Wanted} {name : Text} : w.prunes name = false ↔ Opens w.ignored name := by
  unfold Wanted.prunes
  simp only [Bool.or_eq_false_iff, List.contains_eq_mem, decide_eq_false_iff_not, List.any_eq_false]
  constructor
  · rintro ⟨⟨hlisted, hdot⟩, hfits⟩
    exact ⟨hdot, hlisted, fun p hp => Bool.not_eq_true _ ▸ hfits p hp⟩
  · rintro ⟨hdot, hlisted, hfits⟩
    exact ⟨⟨hlisted, hdot⟩, fun p hp => by simp [hfits p hp]⟩

theorem takes_eq_true {w : Wanted} {above : List Text} {name : Text} :
    w.takes above name = true ↔ name.head? ≠ some '.' ∧
      Text.lower (Path.suffixOf name) ∈ w.extensions ∧ (∀ q ∈ w.excluded, fits q name = false) ∧
      ∀ q ∈ w.ignored,
        fits q name = false ∧ fits q (Path.render { parts := above ++ [name] }) = false := by
  unfold Wanted.takes
  simp only [Bool.and_eq_true, Bool.not_eq_true', List.any_eq_false, Bool.or_eq_true, not_or,
    Bool.not_eq_true, decide_eq_true_eq, List.contains_eq_mem, and_assoc]

def Visit.names : Visit → List Text
  | file ns => ns
  | large ns => ns

namespace Place

variable {p : Place} {w : Wanted} {above : List Text} {v : Visit}

theorem names_of_visit? {names : List Text} (h : p.visit? names = some v) : v.names = names := by
  unfold visit? at h
  split at h
  · obtain rfl := Option.some.inj h
    split <;> rfl
  · obtain rfl := Option.some.inj h
    rfl
  · cases h

theorem mem_visits {es : List (Text × Entry)} :
    v ∈ p.visits w above es ↔ ∃ name e, (name, e) ∈ es ∧ p.isFile above name e = true ∧
      w.takes above name = true ∧ p.visit? (above ++ [name]) = some v := by
  unfold visits byName
  simp only [List.mem_filterMap, List.mem_filter, List.mem_mergeSort, Bool.and_eq_true, Prod.exists,
    and_assoc]

theorem mem_walkAll {es : List (Text × Entry)} {name : Text} {vs : List Visit} :
    (name, vs) ∈ p.walkAll w above es ↔ ∃ inside, (name, .directory inside) ∈ es ∧
      w.prunes name = false ∧ vs = p.walk w (above ++ [name]) (.directory inside) := by
  induction es with
  | nil => simp [walkAll]
  | cons entry es ih =>
    obtain ⟨n, e⟩ := entry
    cases e with
    | file content changed => simpa [walkAll] using ih
    | link target => simpa [walkAll] using ih
    | directory inside =>
      rw [walkAll]
      by_cases hp : w.prunes n = true
      · rw [if_pos hp, ih]
        constructor
        · rintro ⟨i, hi, hrest⟩
          exact ⟨i, List.mem_cons_of_mem _ hi, hrest⟩
        · rintro ⟨i, hi, hkept, hvs⟩
          rcases List.mem_cons.mp hi with hi | hi
          · obtain ⟨rfl, -⟩ := Prod.mk.inj hi
            rw [hp] at hkept
            cases hkept
          · exact ⟨i, hi, hkept, hvs⟩
      · have hkept : w.prunes n = false := Bool.not_eq_true _ ▸ hp
        rw [if_neg hp, List.mem_cons, ih]
        constructor
        · rintro (h | ⟨i, hi, hrest⟩)
          · obtain ⟨rfl, rfl⟩ := Prod.mk.inj h
            exact ⟨inside, List.mem_cons_self, hkept, rfl⟩
          · exact ⟨i, List.mem_cons_of_mem _ hi, hrest⟩
        · rintro ⟨i, hi, hk, rfl⟩
          rcases List.mem_cons.mp hi with hi | hi
          · obtain ⟨rfl, he⟩ := Prod.mk.inj hi
            cases he
            exact Or.inl rfl
          · exact Or.inr ⟨i, hi, hk, rfl⟩

theorem walkAll_keys (es : List (Text × Entry)) :
    (Keyed.keys (p.walkAll w above es)).Sublist (Keyed.keys es) := by
  induction es with
  | nil => simp [walkAll, Keyed.keys]
  | cons entry es ih =>
    obtain ⟨n, e⟩ := entry
    cases e with
    | file content changed => exact ih.cons n
    | link target => exact ih.cons n
    | directory inside =>
      rw [walkAll]
      split
      · exact ih.cons n
      · exact ih.cons_cons n

/-- What is looked for below a directory is at the end of names that a test of each by itself lets pass. -/
theorem mem_walk {e : Entry} (h : e.IsTree) :
    v ∈ p.walk w above e ↔ ∃ dirs name x, e.at? (dirs ++ [name]) = some x ∧
      (∀ c ∈ dirs, w.prunes c = false) ∧ p.isFile (above ++ dirs) name x = true ∧
      w.takes (above ++ dirs) name = true ∧ p.visit? (above ++ dirs ++ [name]) = some v := by
  -- By induction on the tree: either the file is among the entries, or it is below the first of `dirs`.
  induction h generalizing above with
  | file content changed =>
    simp only [walk, List.not_mem_nil, false_iff, not_exists]
    rintro dirs name x ⟨hx, -⟩
    cases dirs <;> cases hx
  | link target =>
    simp only [walk, List.not_mem_nil, false_iff, not_exists]
    rintro dirs name x ⟨hx, -⟩
    cases dirs <;> cases hx
  | directory es hnames hinside ih =>
    have hget {n : Text} {x : Entry} : (n, x) ∈ es ↔ Keyed.get? n es = some x :=
      ⟨Keyed.get?_of_mem hnames, Keyed.mem_of_get?⟩
    rw [walk, List.mem_append, mem_visits]
    constructor
    · rintro (⟨name, x, hx, hrest⟩ | hv)
      · refine ⟨[], name, x, ?_, by simp, by simpa using hrest⟩
        simpa [Entry.at?, Entry.child?] using hget.mp hx
      · obtain ⟨⟨n, vs⟩, hmem, hv⟩ := List.mem_flatMap.mp hv
        obtain ⟨inside, hin, hkept, rfl⟩ := mem_walkAll.mp (List.mem_mergeSort.mp hmem)
        obtain ⟨dirs, name, x, hx, hdirs, hrest⟩ := (ih _ hin).mp hv
        refine ⟨n :: dirs, name, x, ?_, ?_, by simpa using hrest⟩
        · rw [List.cons_append, Entry.at?, Entry.child?, hget.mp hin]
          exact hx
        · exact List.forall_mem_cons.mpr ⟨hkept, hdirs⟩
    · rintro ⟨dirs, name, x, hx, hdirs, hrest⟩
      cases dirs with
      | nil =>
        have hmem : (name, x) ∈ es := by
          rw [hget]
          simpa [Entry.at?, Entry.child?] using hx
        exact Or.inl ⟨name, x, hmem, by simpa using hrest⟩
      | cons n dirs =>
        rw [List.cons_append, Entry.at?] at hx
        obtain ⟨c, hc, hx⟩ := Option.bind_eq_some_iff.mp hx
        obtain ⟨inside, rfl⟩ := Entry.isDirectory_of_at? (by simp) hx
        have hin : (n, .directory inside) ∈ es := hget.mpr hc
        obtain ⟨hkept, hdirs⟩ := List.forall_mem_cons.mp hdirs
        have hv : v ∈ p.walk w (above ++ [n]) (.directory inside) :=
          (ih _ hin).mpr ⟨dirs, name, x, hx, hdirs, by simpa using hrest⟩
        refine Or.inr (List.mem_flatMap.mpr ⟨(n, _), List.mem_mergeSort.mpr ?_, hv⟩)
        exact mem_walkAll.mpr ⟨inside, hin, hkept, rfl⟩

end Place

/-- The order in which a walk comes to files: those of a directory before those of the directories in it, and
both in the order of names. -/
def Comes : List Text → List Text → Prop
  | [a], [b] => Text.Before a b
  | [_], _ :: _ :: _ => True
  | a :: a' :: as, b :: b' :: bs => Text.Before a b ∨ a = b ∧ Comes (a' :: as) (b' :: bs)
  | _, _ => False

theorem Comes.irrefl (ns : List Text) : ¬ Comes ns ns := by
  induction ns with
  | nil => exact id
  | cons n ns ih =>
    cases ns with
    | nil => exact Text.Before.irrefl n
    | cons m ns =>
      rintro (h | ⟨-, h⟩)
      · exact Text.Before.irrefl n h
      · exact ih h

theorem Comes.cons {as bs : List Text} (n : Text) (h : Comes as bs) : Comes (n :: as) (n :: bs) := by
  cases as with
  | nil => cases h
  | cons a as =>
    cases bs with
    | nil => cases as <;> cases h
    | cons b bs => exact Or.inr ⟨rfl, h⟩

/-- The entries in the order of their names. -/
theorem pairwise_byName {α : Type} {es : List (Text × α)} (h : (Keyed.keys es).Nodup) :
    (byName es).Pairwise fun a b => Text.Before a.1 b.1 := by
  have htotal (a b : Text × α) : (Text.le a.1 b.1 || Text.le b.1 a.1) = true := by
    simpa using Text.le_total a.1 b.1
  have htrans (a b c : Text × α) (hab : Text.le a.1 b.1 = true) (hbc : Text.le b.1 c.1 = true) :
      Text.le a.1 c.1 = true := Text.le_trans hab hbc
  have hle : (byName es).Pairwise fun a b => Text.le a.1 b.1 = true :=
    List.pairwise_mergeSort htrans htotal es
  have hperm : (byName es).Perm es := List.mergeSort_perm es _
  have hne : (byName es).Pairwise fun a b => a.1 ≠ b.1 :=
    List.pairwise_map.mp ((hperm.map Prod.fst).nodup_iff.mpr h)
  exact hle.and hne

namespace Place

variable {p : Place} {w : Wanted} {above : List Text} {u v : Visit}

/-- Two files below the names `above`, of which the first comes first. -/
def InOrder (above : List Text) (u v : Visit) : Prop :=
  ∃ a b, u.names = above ++ a ∧ v.names = above ++ b ∧ Comes a b

theorem InOrder.of_child {n : Text} (h : InOrder (above ++ [n]) u v) : InOrder above u v := by
  obtain ⟨a, b, ha, hb, hcomes⟩ := h
  exact ⟨n :: a, n :: b, by simpa using ha, by simpa using hb, hcomes.cons n⟩

theorem pairwise_visits {es : List (Text × Entry)} (h : (Keyed.keys es).Nodup) :
    (p.visits w above es).Pairwise (InOrder above) := by
  unfold visits
  refine List.Pairwise.filterMap _ ?_ ((pairwise_byName h).filter _)
  intro a b hab u hu v hv
  exact ⟨[a.1], [b.1], names_of_visit? hu, names_of_visit? hv, hab⟩

/-- Everything in a directory comes after the files of the directory around it. -/
theorem names_of_mem_walk {e : Entry} (he : e.IsTree) (h : v ∈ p.walk w above e) :
    ∃ n ns, v.names = above ++ n :: ns := by
  obtain ⟨dirs, name, x, -, -, -, -, hv⟩ := (mem_walk he).mp h
  rw [names_of_visit? hv]
  cases dirs with
  | nil => exact ⟨name, [], by simp⟩
  | cons n dirs => exact ⟨n, dirs ++ [name], by simp⟩

theorem pairwise_walk {e : Entry} (he : e.IsTree) : (p.walk w above e).Pairwise (InOrder above) := by
  induction he generalizing above with
  | file content changed => simp [walk]
  | link target => simp [walk]
  | directory es hnames hinside ih =>
    have hkeys : (Keyed.keys (p.walkAll w above es)).Nodup := (walkAll_keys es).nodup hnames
    have hsub {n : Text} {vs : List Visit} (h : (n, vs) ∈ byName (p.walkAll w above es)) :
        (∀ v ∈ vs, ∃ m ns, v.names = above ++ n :: m :: ns) ∧ vs.Pairwise (InOrder above) := by
      obtain ⟨inside, hin, -, rfl⟩ := mem_walkAll.mp (List.mem_mergeSort.mp h)
      constructor
      · intro v hv
        obtain ⟨m, ns, hv⟩ := names_of_mem_walk (hinside _ hin) hv
        exact ⟨m, ns, by simpa using hv⟩
      · exact (ih _ hin).imp InOrder.of_child
    rw [walk, List.pairwise_append]
    refine ⟨pairwise_visits hnames, ?_, ?_⟩
    · rw [List.pairwise_flatMap]
      refine ⟨fun x hx => (hsub hx).2, ?_⟩
      refine (pairwise_byName hkeys).imp_of_mem ?_
      intro x y hx hy hxy u hu v hv
      obtain ⟨m, ns, hu⟩ := (hsub hx).1 u hu
      obtain ⟨m', ns', hv⟩ := (hsub hy).1 v hv
      exact ⟨_, _, hu, hv, Or.inl hxy⟩
    · intro u hu v hv
      obtain ⟨name, -, -, -, -, hu⟩ := mem_visits.mp hu
      obtain ⟨x, hx, hv⟩ := List.mem_flatMap.mp hv
      obtain ⟨m, ns, hv⟩ := (hsub hx).1 v hv
      exact ⟨[name], _, names_of_visit? hu, hv, trivial⟩

variable {es : List (Text × Entry)} {names : List Text}

/-- A project whose root, seen without links, is a directory. -/
structure HasTree (p : Place) (es : List (Text × Entry)) : Prop where
  tree : Entry.IsTree (.directory es)
  absolute : p.root.root = ['/']
  direct : IsDirect p.disk.root p.root.parts
  there : p.disk.root.at? p.root.parts = some (.directory es)

namespace HasTree

theorem root_eq (h : p.HasTree es) : p.root = ⟨['/'], p.root.parts⟩ := by
  rw [← h.absolute]

theorem path_eq (h : p.HasTree es) (names : List Text) : p.path names = ⟨['/'], p.root.parts ++ names⟩ := by
  change Path.mk p.root.root (p.root.parts ++ names) = _
  rw [h.absolute]

theorem entry_root (h : p.HasTree es) : p.disk.entry p.root = .ok (.directory es) := by
  rw [h.root_eq]
  exact Disk.entry_of_direct h.direct h.there

theorem at?_append (h : p.HasTree es) (names : List Text) :
    p.disk.root.at? (p.root.parts ++ names) = Entry.at? (.directory es) names := by
  rw [Entry.at?_append, h.there]
  rfl

/-- What stands in the tree is what the disk has at its path. -/
theorem entry_path (h : p.HasTree es) {e : Entry} (hat : Entry.at? (.directory es) names = some e)
    (hlink : ∀ t, e ≠ .link t) (hforward : Path.parentName ∉ names) :
    p.disk.entry (p.path names) = .ok e := by
  have hdirect : IsDirect p.disk.root (p.root.parts ++ names) := by
    refine ⟨?_, ?_⟩
    · rw [List.mem_append, not_or]
      exact ⟨h.direct.forward, hforward⟩
    · rintro q ⟨rest, hsplit⟩ t hqt
      rcases List.append_eq_append_iff.mp hsplit with ⟨r, hr, -⟩ | ⟨r, rfl, rfl⟩
      · exact h.direct.noLink q ⟨r, hr.symm⟩ t hqt
      · rw [h.at?_append] at hqt
        cases rest with
        | nil =>
          rw [List.append_nil, hqt] at hat
          exact hlink t (Option.some.inj hat).symm
        | cons n rest =>
          rw [Entry.at?_append, hqt] at hat
          cases hat
  rw [h.path_eq]
  exact Disk.entry_of_direct hdirect (by rw [h.at?_append]; exact hat)

theorem entry_ne_link (h : p.HasTree es) {q : Path} {e : Entry} (he : p.disk.entry q = .ok e) (t : Text) :
    e ≠ .link t := Disk.entry_ne_link h.direct.root_ne_link he t

/-- A file that is looked for is found where its size can be read and is not too much. -/
theorem visit?_eq_file (h : p.HasTree es) {name : Text} {x : Entry}
    (hat : Entry.at? (.directory es) (above ++ [name]) = some x)
    (hforward : Path.parentName ∉ above ++ [name]) (hfile : p.isFile above name x = true) :
    p.visit? (above ++ [name]) = some (.file names) ↔ above ++ [name] = names ∧
      ∃ content changed, p.disk.entry (p.path (above ++ [name])) = .ok (.file content changed) ∧
        content.size ≤ maxFileSize := by
  have hkind {e : Entry} (he : p.disk.entry (p.path (above ++ [name])) = .ok e) :
      ∃ content changed, e = .file content changed := by
    cases x with
    | file content changed =>
      have hx := h.entry_path hat (fun t => Entry.noConfusion) hforward
      rw [hx] at he
      exact ⟨content, changed, (Except.ok.inj he).symm⟩
    | directory inside => cases hfile
    | link target =>
      cases e with
      | file content changed => exact ⟨content, changed, rfl⟩
      | link t => exact absurd rfl (h.entry_ne_link he t)
      | directory inside => simp [isFile, Disk.isDirectory, he, Entry.isDirectory] at hfile
  cases he : p.disk.entry (p.path (above ++ [name])) with
  | error o => simp [visit?, he]
  | ok e =>
    obtain ⟨content, changed, rfl⟩ := hkind he
    by_cases hsize : content.size > maxFileSize
    · simp [visit?, he, hsize]
    · simp [visit?, he, hsize]
      omega

theorem mem_found (h : p.HasTree es) :
    names ∈ (p.walk w [] (.directory es)).filterMap Visit.file? ↔
      ∃ above name, names = above ++ [name] ∧ Selects p w (.directory es) above name := by
  have hmem : names ∈ (p.walk w [] (.directory es)).filterMap Visit.file? ↔
      Visit.file names ∈ p.walk w [] (.directory es) := by
    rw [List.mem_filterMap]
    constructor
    · rintro ⟨v, hv, hf⟩
      cases v with
      | file ns =>
        obtain rfl := Option.some.inj hf
        exact hv
      | large ns => cases hf
    · exact fun hv => ⟨_, hv, rfl⟩
  rw [hmem, mem_walk h.tree]
  constructor
  · rintro ⟨above, name, x, hat, hdirs, hfile, htakes, hvisit⟩
    rw [List.nil_append] at hfile htakes hvisit
    have hopens (c : Text) (hc : c ∈ above) : Opens w.ignored c := prunes_eq_false.mp (hdirs c hc)
    obtain ⟨hvisible, hextension, hexcluded, hunmatched⟩ := takes_eq_true.mp htakes
    obtain ⟨hnames, hsize⟩ := (h.visit?_eq_file hat (forward_of_opens hopens hvisible) hfile).mp hvisit
    have hx : x.isDirectory = false := by
      cases x with
      | directory inside => cases hfile
      | file content changed => rfl
      | link target => rfl
    exact ⟨above, name, hnames.symm, ⟨x, hat, hx⟩, hopens, hvisible, hextension, hexcluded, hunmatched, hsize⟩
  · rintro ⟨above, name, rfl, hs⟩
    obtain ⟨x, hat, hx⟩ := hs.reached
    have hfile : p.isFile above name x = true := by
      obtain ⟨content, changed, hentry, -⟩ := hs.size
      cases x with
      | directory inside => cases hx
      | file content changed => rfl
      | link target => simp [isFile, Disk.isDirectory, hentry, Entry.isDirectory]
    refine ⟨above, name, x, hat, fun c hc => prunes_eq_false.mpr (hs.opens c hc), hfile, ?_, ?_⟩
    · exact takes_eq_true.mpr ⟨hs.visible, hs.extension, hs.unexcluded, hs.unmatched⟩
    · exact (h.visit?_eq_file hat (forward_of_opens hs.opens hs.visible) hfile).mpr ⟨rfl, hs.size⟩

theorem pairwise_found (h : p.HasTree es) :
    ((p.walk w [] (.directory es)).filterMap Visit.file?).Pairwise Comes := by
  refine List.Pairwise.filterMap _ ?_ (pairwise_walk h.tree)
  rintro u v ⟨a, b, ha, hb, hcomes⟩ c hc d hd
  have hnames {v : Visit} {ns : List Text} (hv : v.file? = some ns) : v.names = ns := by
    cases v with
    | file ms => exact Option.some.inj hv
    | large ms => cases hv
  rw [hnames hc, List.nil_append] at ha
  rw [hnames hd, List.nil_append] at hb
  rw [ha, hb]
  exact hcomes

end HasTree

end Place

/-- Only which patterns there are counts, and not their order. -/
theorem Selects.congr {p : Place} {w w' : Wanted} {tree : Entry} {above : List Text} {name : Text}
    (h : Selects p w tree above name) (hextensions : w.extensions = w'.extensions)
    (hexcluded : w.excluded = w'.excluded) (hignored : ∀ q, q ∈ w.ignored ↔ q ∈ w'.ignored) :
    Selects p w' tree above name where
  reached := h.reached
  opens c hc :=
    ⟨(h.opens c hc).visible, fun hq => (h.opens c hc).unlisted ((hignored c).mpr hq),
      fun q hq => (h.opens c hc).unmatched q ((hignored q).mpr hq)⟩
  visible := h.visible
  extension := hextensions ▸ h.extension
  unexcluded := hexcluded ▸ h.unexcluded
  unmatched q hq := h.unmatched q ((hignored q).mpr hq)
  size := h.size

/-- The text of the file in which a project lists patterns, which is empty where there is no such file. -/
def Ignore.HasText (d : Disk) (root : Path) (t : Text) : Prop :=
  if d.isThere (root.child fileName) then d.readText (root.child fileName) = .ok t else t = []

theorem Ignore.load_of_hasText {d : Disk} {root : Path} {t : Text} (h : HasText d root t)
    (further : List Text) : load d root further = .ok (Text.sorted (standard ++ further ++ ofText t)) := by
  unfold HasText at h
  unfold load
  by_cases hthere : d.isThere (root.child fileName) = true
  · rw [if_pos hthere] at h
    dsimp only
    rw [if_pos hthere, h]
    rfl
  · rw [if_neg hthere] at h
    subst h
    dsimp only
    rw [if_neg hthere]
    rfl

/-- The files that are found are those of a walk, sorted by their paths. -/
structure Found.Sorts (f : Found) (vs : List Visit) : Prop where
  perm : (f.files.map Path.parts).Perm (vs.filterMap Visit.file?)
  pairwise : f.files.Pairwise Path.Before

theorem Found.sorts_ofVisits (root : Path) (what : Text) {vs : List Visit}
    (h : (vs.filterMap Visit.file?).Nodup) : (Found.ofVisits root what vs).Sorts vs := by
  let files : List Path := (vs.filterMap Visit.file?).map fun ns => { parts := ns }
  have hfiles : (Found.ofVisits root what vs).files = files.mergeSort Path.le := rfl
  have hparts : files.map Path.parts = vs.filterMap Visit.file? := by
    rw [List.map_map]
    exact List.map_id _
  have hnodup : files.Nodup := List.Nodup.of_map Path.parts (hparts ▸ h)
  constructor
  · rw [hfiles, ← hparts]
    exact (List.mergeSort_perm files Path.le).map Path.parts
  · rw [hfiles]
    exact Path.pairwise_mergeSort hnodup

variable {d : Disk} {root : Path} {es : List (Text × Entry)} {t : Text}

theorem exists_hasTree (htree : Entry.IsTree (.directory es)) (hroot : d.entry root = .ok (.directory es)) :
    ∃ place, d.resolved root = .ok place ∧ Place.HasTree ⟨d, place⟩ es := by
  have hlink : ∀ t, d.root ≠ .link t := Disk.root_ne_link hroot fun t => Entry.noConfusion
  obtain ⟨ns, hresolved, hdirect, hat⟩ := Disk.resolved_of_entry hlink hroot
  exact ⟨_, hresolved, htree, rfl, hdirect, hat⟩

theorem Place.HasTree.of_resolved {place : Path} (htree : d.root.IsTree) (h : d.resolved root = .ok place)
    (hentry : d.entry place = .ok (.directory es)) : HasTree ⟨d, place⟩ es := by
  have hlink : ∀ t, d.root ≠ .link t := Disk.root_ne_link hentry fun t => Entry.noConfusion
  obtain ⟨ns, rfl, hdirect⟩ := Disk.direct_of_resolved hlink h
  obtain ⟨here, hhere, -, hat⟩ := Disk.resolved_of_entry hlink hentry
  cases (Disk.resolved_of_direct hdirect).symm.trans hhere
  exact ⟨htree.at? hat, rfl, hdirect, hat⟩

theorem Comes.nodup {ns : List (List Text)} (h : ns.Pairwise Comes) : ns.Nodup := by
  refine h.imp ?_
  rintro a b hcomes rfl
  exact Comes.irrefl a hcomes

/-- The files of a walk are those that the test of each by itself lets pass. -/
theorem exists_walk {place : Path} (hresolved : d.resolved root = .ok place) (hp : Place.HasTree ⟨d, place⟩ es)
    (hown : Ignore.HasText d root t) (extensions further directories excluded : List Text) :
    ∃ vs, walk d root extensions further directories excluded = .ok vs ∧
      (∀ names, names ∈ vs.filterMap Visit.file? ↔ ∃ above name, names = above ++ [name] ∧
        Selects ⟨d, place⟩ ⟨extensions.map Text.lower,
          Ignore.standard ++ further ++ Ignore.ofText t ++ directories, excluded⟩
          (.directory es) above name) ∧
      (vs.filterMap Visit.file?).Pairwise Comes := by
  let w : Wanted :=
    ⟨extensions.map Text.lower, Text.sorted (Ignore.standard ++ further ++ Ignore.ofText t) ++ directories, excluded⟩
  let listed : Wanted :=
    ⟨extensions.map Text.lower, Ignore.standard ++ further ++ Ignore.ofText t ++ directories, excluded⟩
  have hignored (q : Text) : q ∈ w.ignored ↔ q ∈ listed.ignored := by
    simp [w, listed, or_assoc]
  have hselects (above : List Text) (name : Text) :
      Selects ⟨d, place⟩ w (.directory es) above name ↔ Selects ⟨d, place⟩ listed (.directory es) above name :=
    ⟨fun h => h.congr rfl rfl hignored, fun h => h.congr rfl rfl fun q => (hignored q).symm⟩
  refine ⟨Place.walk ⟨d, place⟩ w [] (.directory es), ?_, fun names => ?_, hp.pairwise_found⟩
  · unfold walk
    rw [Ignore.load_of_hasText hown, hresolved]
    change Except.ok _ = _
    dsimp only
    rw [hp.entry_root]
  · rw [hp.mem_found]
    exact exists_congr fun above => exists_congr fun name => and_congr_right fun _ => hselects above name

/-- What a walk finds, whatever patterns the project has, is selected by some. -/
theorem exists_of_mem_walk {extensions further directories excluded : List Text} {vs : List Visit} {ns : List Text}
    (htree : d.root.IsTree) (h : walk d root extensions further directories excluded = .ok vs)
    (hns : ns ∈ vs.filterMap Visit.file?) :
    ∃ place es ignored above name, d.resolved root = .ok place ∧ Place.HasTree ⟨d, place⟩ es ∧ ns = above ++ [name] ∧
      Selects ⟨d, place⟩ ⟨extensions.map Text.lower, ignored, excluded⟩ (.directory es) above name := by
  obtain ⟨ignored, -, h⟩ := exists_of_bind_eq_ok h
  obtain ⟨place, hplace, h⟩ := exists_of_bind_eq_ok h
  obtain rfl := Except.ok.inj h
  cases hentry : d.entry place with
  | error o =>
    rw [hentry] at hns
    cases hns
  | ok e =>
    rw [hentry] at hns
    cases e with
    | file content changed => cases hns
    | link target => cases hns
    | directory es =>
      have hp := Place.HasTree.of_resolved htree hplace hentry
      obtain ⟨above, name, hnames, hselects⟩ := hp.mem_found.mp hns
      exact ⟨place, es, _, above, name, hplace, hp, hnames, hselects⟩

theorem findSources_of_walk {extensions further : List Text} {vs : List Visit}
    (h : walk d root extensions further [] excludedSources = .ok vs) :
    findSources d root extensions further = .ok (.ofVisits root "source" vs) := by
  unfold findSources
  rw [h]
  rfl

theorem findSql_of_walk {further : List Text} {vs : List Visit}
    (h : walk d root [".sql"] further excludedSqlDirectories [] = .ok vs) :
    findSql d root further = .ok (.ofVisits root "SQL" vs) := by
  unfold findSql
  rw [h]
  rfl

/-- A walk through a project finds each file once that the test of its path by itself lets pass, and no others;
in each directory it comes to the files before the directories, both in the order of names. What is found of
either kind is what a walk finds, in the order of the paths. -/
theorem walk_finds_selected (htree : Entry.IsTree (.directory es))
    (hroot : d.entry root = .ok (.directory es)) (hown : Ignore.HasText d root t)
    (extensions further directories excluded : List Text) :
    ∃ place vs, d.resolved root = .ok place ∧
      walk d root extensions further directories excluded = .ok vs ∧
      (∀ names, names ∈ vs.filterMap Visit.file? ↔ ∃ above name, names = above ++ [name] ∧
        Selects ⟨d, place⟩ ⟨extensions.map Text.lower,
          Ignore.standard ++ further ++ Ignore.ofText t ++ directories, excluded⟩
          (.directory es) above name) ∧
      (vs.filterMap Visit.file?).Nodup ∧ (vs.filterMap Visit.file?).Pairwise Comes ∧
      (∃ vs f, walk d root extensions further [] excludedSources = .ok vs ∧
        findSources d root extensions further = .ok f ∧ f.Sorts vs) ∧
      ∃ vs f, walk d root [".sql"] further excludedSqlDirectories [] = .ok vs ∧
        findSql d root further = .ok f ∧ f.Sorts vs := by
  obtain ⟨place, hresolved, hp⟩ := exists_hasTree htree hroot
  have hwalk := exists_walk hresolved hp hown
  obtain ⟨vs, hvs, hmem, hcomes⟩ := hwalk extensions further directories excluded
  refine ⟨place, vs, hresolved, hvs, hmem, Comes.nodup hcomes, hcomes, ?_, ?_⟩
  · obtain ⟨sources, hsources, -, hcomes⟩ := hwalk extensions further [] excludedSources
    exact ⟨sources, _, hsources, findSources_of_walk hsources, Found.sorts_ofVisits root _ (Comes.nodup hcomes)⟩
  · obtain ⟨sqlFiles, hsqlFiles, -, hcomes⟩ := hwalk [".sql"] further excludedSqlDirectories []
    exact ⟨sqlFiles, _, hsqlFiles, findSql_of_walk hsqlFiles, Found.sorts_ofVisits root _ (Comes.nodup hcomes)⟩

/-- A project that lists the directory `skip`, next to a file. -/
def skippingTree : List (Text × Entry) := [
  (".mcpgenignore", .file (Text.toUtf8 "skip/\n") 0),
  ("a.ts", .file .empty 0),
  ("skip", .directory [("b.ts", .file .empty 0)])]

private theorem skippingTree_isTree : Entry.IsTree (.directory skippingTree) := by
  refine .directory _ (by decide) fun e he => ?_
  simp only [skippingTree, List.mem_cons, List.not_mem_nil, or_false] at he
  rcases he with rfl | rfl | rfl
  · exact .file _ _
  · exact .file _ _
  · refine .directory _ (by decide) fun e he => ?_
    rw [List.mem_singleton.mp he]
    exact .file _ _

theorem walk_finds_selected_skipping :
    let d : Disk := { root := .directory skippingTree }
    let root : Path := ⟨['/'], []⟩
    Entry.IsTree (.directory skippingTree) ∧ d.entry root = .ok (.directory skippingTree) ∧
      Ignore.HasText d root "skip/\n" ∧
      ∃ vs, walk d root [".TS"] [] [] [] = .ok vs ∧ ["a.ts".toList] ∈ vs.filterMap Visit.file? ∧
        ["skip".toList, "b.ts".toList] ∉ vs.filterMap Visit.file? := by
  intro d root
  have hroot : d.entry root = .ok (.directory skippingTree) := by cbv
  have hown : Ignore.HasText d root "skip/\n" := by
    have hthere : d.isThere (root.child Ignore.fileName) = true := by cbv
    have hread : d.read (root.child Ignore.fileName) = .ok (Text.toUtf8 "skip/\n", 0) := by cbv
    have hutf8 : Text.ofUtf8? (Text.toUtf8 "skip/\n").toList = some "skip/\n".toList := by decide +kernel
    unfold Ignore.HasText
    rw [if_pos hthere, Disk.readText, hread]
    simp only [hutf8]
    rfl
  obtain ⟨place, vs, hplace, hwalk, hfound, -⟩ :=
    walk_finds_selected skippingTree_isTree hroot hown [".TS"] [] [] []
  obtain rfl : root = place := by
    have hresolved : d.resolved root = .ok root := by cbv
    rw [hresolved] at hplace
    exact Except.ok.inj hplace
  refine ⟨skippingTree_isTree, hroot, hown, vs, hwalk, (hfound _).mpr ?_, fun hskip => ?_⟩
  · refine ⟨[], "a.ts", rfl, ⟨_, rfl, rfl⟩, by simp, by decide, by decide, by simp, by decide, .empty, 0, ?_, ?_⟩
    · cbv
    · decide
  · obtain ⟨above, name, hnames, hs⟩ := (hfound _).mp hskip
    have habove : ["skip".toList] = above := by simpa using congrArg List.dropLast hnames
    subst habove
    have hunlisted := (hs.opens "skip" (List.mem_singleton_self _)).unlisted
    exact hunlisted (by decide)

end CodeManifest.Project
