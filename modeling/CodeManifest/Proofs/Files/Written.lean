import CodeManifest.Proofs.Files.Room

namespace CodeManifest.Files

namespace Disk

variable {a b : Disk} {p : Path} {e : Entry}

/-- What a path leads to looks the same where everything on the way is kept, and the file at its end. -/
theorem entry_of_keeps (hhere : b.here = a.here) (h : Keeps a.root b.root)
    (hfile : ∀ ns content changed, a.resolve p = .ok ⟨['/'], ns⟩ →
      a.root.look? ns = some (.file content changed) → b.root.look? ns = some (.file content changed))
    (hroot : ∀ t, a.root ≠ .link t) (he : a.entry p = .ok e) : ∃ e', b.entry p = .ok e' ∧ e'.look = e.look := by
  obtain ⟨place, hfind⟩ := entry_eq_ok.mp he
  obtain ⟨hdirect, hat, hplace⟩ := find_spec hroot hfind
  have hlook : b.root.look? place = some e.look := by
    have hbefore : a.root.look? place = some e.look := by
      rw [Entry.look?, ← hat]
      rfl
    cases e with
    | file content changed => exact hfile place content changed hplace hbefore
    | link t => exact absurd hat.symm (hdirect.noLink place List.prefix_rfl t)
    | directory es => exact h.directory place hbefore
  obtain ⟨e', he', hlook'⟩ := Option.map_eq_some_iff.mp hlook
  refine ⟨e', entry_eq_ok.mpr ⟨place, ?_⟩, hlook'⟩
  rw [← he']
  exact find_of_keeps hhere h hroot hfind

theorem entry_eq_file_of_keeps {content : ByteArray} {changed : Int} (hhere : b.here = a.here)
    (h : Keeps a.root b.root)
    (hfile : ∀ ns content changed, a.resolve p = .ok ⟨['/'], ns⟩ →
      a.root.look? ns = some (.file content changed) → b.root.look? ns = some (.file content changed))
    (he : a.entry p = .ok (.file content changed)) : b.entry p = .ok (.file content changed) := by
  have hroot := root_ne_link he fun t => Entry.noConfusion
  obtain ⟨e', he', hlook⟩ := entry_of_keeps hhere h hfile hroot he
  cases e' with
  | file content' changed' =>
    cases hlook
    exact he'
  | link t => cases hlook
  | directory es => cases hlook

theorem isDirectory_of_keeps (hhere : b.here = a.here) (h : Keeps a.root b.root) (hp : a.isDirectory p = true) :
    b.isDirectory p = true := by
  obtain ⟨place, es, hfind⟩ := isDirectory_eq_true.mp hp
  have hroot := root_ne_link_of_find hfind fun t => by simp
  obtain ⟨-, hat, -⟩ := find_spec hroot hfind
  obtain ⟨es', hat'⟩ := Entry.look?_eq_directory.mp (h.directory place (Entry.look?_eq_directory.mpr ⟨es, hat.symm⟩))
  refine isDirectory_eq_true.mpr ⟨place, es', ?_⟩
  rw [← hat']
  exact find_of_keeps hhere h hroot hfind

theorem resolve_of_keeps (hhere : b.here = a.here) (h : Keeps a.root b.root) (p : Path) :
    b.resolve p = a.resolve p := by
  unfold resolve names
  rw [hhere, resolveFrom_of_keeps h]

end Disk

/-- No link stands for the same place as the path, be it that it is there or leads there. -/
def Disk.Unlinked (d : Disk) (p : Path) : Prop :=
  ∀ q t, d.root.at? q = some (.link t) → d.resolve ⟨['/'], q⟩ ≠ d.resolve p

namespace Disk

variable {a b c : Disk} {p : Path} {t : Text} {now : Int}

/-- Only the links that there are have to be looked at. -/
theorem Unlinked.of_linkPlaces (h : ∀ q ∈ a.root.linkPlaces, a.resolve ⟨['/'], q⟩ ≠ a.resolve p) : a.Unlinked p :=
  fun q _ hat => h q (Entry.mem_linkPlaces hat)

theorem Unlinked.of_keeps (h : a.Unlinked p) (hhere : b.here = a.here) (hkeeps : Keeps a.root b.root) :
    b.Unlinked p := by
  intro q t hq
  rw [resolve_of_keeps hhere hkeeps, resolve_of_keeps hhere hkeeps]
  exact h q t (Entry.look?_eq_link.mp ((hkeeps.link q t).mpr (Entry.look?_eq_link.mpr hq)))

theorem names_child (d : Disk) (p : Path) (n : Text) : d.names (p.child n) = d.names p ++ [n] := by
  unfold names Path.join
  have habsolute : (p.child n).isAbsolute = p.isAbsolute := rfl
  rw [habsolute]
  split
  · rfl
  · exact (List.append_assoc _ _ _).symm

/-- What is written goes under the last name of its path, if there are no links to it. -/
theorem last_of_write {n : Text} (h : a.write (p.child n) t now = .ok b) (hlinks : a.Unlinked (p.child n)) :
    ∃ above, a.resolve (p.child n) = .ok ⟨['/'], above ++ [n]⟩ := by
  obtain ⟨ns, o, hfind, hdirectory, hlink, -⟩ := exists_of_write h
  have hroot := root_ne_link_of_find hfind hlink
  obtain ⟨-, -, hplace⟩ := find_spec hroot hfind
  unfold find at hfind
  rw [names_child] at hfind
  obtain ⟨above, es, -, rfl | ⟨target, hat, hleads⟩⟩ := last_of_follow (.nil hroot) hfind hdirectory
  · exact ⟨above, hplace⟩
  · have hsame : a.resolve ⟨['/'], above ++ [n]⟩ = a.resolve (p.child n) := by
      rw [hplace]
      unfold resolve
      rw [names_absolute, hleads]
    exact absurd hsame (hlinks _ target hat)

/-- Where there is nothing yet a file can be written. -/
theorem exists_write_of_find {ns : List Text} (h : a.find p = .ok (ns, none)) (t : Text) (now : Int) :
    ∃ b, a.write p t now = .ok b := by
  unfold write update
  rw [h]
  exact ⟨_, rfl⟩

/-- Where a file was written another can be, if directories and links are the same. -/
theorem exists_write_again (h : a.write p t now = .ok b) (hhere : c.here = a.here) (hforth : Keeps a.root c.root)
    (hback : Keeps c.root a.root) (t' : Text) (now' : Int) : ∃ d, c.write p t' now' = .ok d := by
  obtain ⟨ns, o, hfind, hdirectory, hlink, -⟩ := exists_of_write h
  have hroot := root_ne_link_of_find hfind hlink
  obtain ⟨-, hat, -⟩ := find_spec hroot hfind
  unfold write update
  rw [find_of_keeps hhere hforth hroot hfind]
  cases hc : c.root.at? ns with
  | none => exact ⟨_, rfl⟩
  | some e =>
    cases e with
    | file content changed => exact ⟨_, rfl⟩
    | link target =>
      have hlook := (hforth.link ns target).mpr (Entry.look?_eq_link.mpr hc)
      exact absurd (hat.trans (Entry.look?_eq_link.mp hlook)) (hlink target)
    | directory es =>
      obtain ⟨es', hes'⟩ := Entry.look?_eq_directory.mp
        (hback.directory ns (Entry.look?_eq_directory.mpr ⟨es, hc⟩))
      exact absurd (hat.trans hes') (hdirectory es')

end Disk

/-- Where something stands is no link on the way, up to the last name. -/
theorem isDirect_of_at? {root e : Entry} {ns : List Text} (h : root.at? ns = some e) (he : ∀ t, e ≠ .link t)
    (hforward : Path.parentName ∉ ns) : IsDirect root ns where
  forward := hforward
  noLink := by
    rintro q ⟨r, rfl⟩ t hq
    cases r with
    | nil =>
      rw [List.append_nil, hq] at h
      exact he t (Option.some.inj h).symm
    | cons n r =>
      rw [Entry.at?_append, hq] at h
      cases h

/-- The second disk is the first with files written at these places. -/
structure Disk.Writes (a : Disk) (places : List (List Text)) (b : Disk) : Prop where
  here : b.here = a.here
  forth : Keeps a.root b.root
  back : Keeps b.root a.root
  file : ∀ q ∉ places, ∀ content changed,
    b.root.look? q = some (.file content changed) ↔ a.root.look? q = some (.file content changed)
  written : ∀ q ∈ places, ∃ content changed, b.root.look? q = some (.file content changed)
  tree : a.root.IsTree → b.root.IsTree

namespace Disk.Writes

variable {a b c : Disk} {ps qs : List (List Text)}

theorem refl (a : Disk) : a.Writes [] a where
  here := rfl
  forth := .refl a.root
  back := .refl a.root
  file _ _ _ _ := Iff.rfl
  written := by simp
  tree := id

theorem of_wrote {ns : List Text} {content : ByteArray} {now : Int} (h : a.Wrote ns content now b) :
    a.Writes [ns] b where
  here := by rw [h.eq]
  forth := h.keeps
  back := by
    refine ⟨fun q hq => ?_, fun q t => (h.keeps.link q t).symm⟩
    by_cases hns : q = ns
    · rw [hns, Entry.look?_eq_file.mpr h.at?_self] at hq
      cases hq
    · rw [← h.look?_of_ne hns]
      exact hq
  file q hq content' changed := by
    rw [h.look?_of_ne (by simpa using hq)]
  written q hq := by
    rw [List.mem_singleton.mp hq]
    exact ⟨content, now, Entry.look?_eq_file.mpr h.at?_self⟩
  tree ha := by
    rw [h.eq]
    exact ha.put (.file content now) ns

theorem trans (h : a.Writes ps b) (h' : b.Writes qs c) : a.Writes (ps ++ qs) c where
  here := h'.here.trans h.here
  forth := h.forth.trans h'.forth
  back := h'.back.trans h.back
  file q hq content changed := by
    rw [List.mem_append, not_or] at hq
    rw [h'.file q hq.2, h.file q hq.1]
  written q hq := by
    by_cases hqs : q ∈ qs
    · exact h'.written q hqs
    · obtain ⟨content, changed, hb⟩ := h.written q ((List.mem_append.mp hq).resolve_right hqs)
      exact ⟨content, changed, (h'.file q hqs content changed).mpr hb⟩
  tree := h'.tree ∘ h.tree

end Disk.Writes

/-- Is there a file or a link at a place, and does it lead to this file? -/
def Disk.Shows (d : Disk) (q : List Text) (content : ByteArray) (changed : Int) : Prop :=
  (∃ e, d.root.at? q = some e ∧ e.isDirectory = false) ∧ d.entry ⟨['/'], q⟩ = .ok (.file content changed)

/-- It is that file itself, or a link to it. -/
theorem Disk.shows_iff_look? {d : Disk} {q : List Text} {content : ByteArray} {changed : Int}
    (hforward : Path.parentName ∉ q) : d.Shows q content changed ↔
      d.root.look? q = some (.file content changed) ∨
        ∃ t, d.root.look? q = some (.link t) ∧ d.entry ⟨['/'], q⟩ = .ok (.file content changed) := by
  have hfile {content' : ByteArray} {changed' : Int} (hat : d.root.at? q = some (.file content' changed')) :
      d.entry ⟨['/'], q⟩ = .ok (.file content' changed') :=
    entry_of_direct (isDirect_of_at? hat (fun t => Entry.noConfusion) hforward) hat
  constructor
  · rintro ⟨⟨e, hat, hkind⟩, he⟩
    cases e with
    | directory es => cases hkind
    | link t => exact Or.inr ⟨t, Entry.look?_eq_link.mpr hat, he⟩
    | file content' changed' =>
      rw [Except.ok.inj ((hfile hat).symm.trans he)] at hat
      exact Or.inl (Entry.look?_eq_file.mpr hat)
  · rintro (hlook | ⟨t, hlook, he⟩)
    · have hat := Entry.look?_eq_file.mp hlook
      exact ⟨⟨_, hat, rfl⟩, hfile hat⟩
    · exact ⟨⟨_, Entry.look?_eq_link.mp hlook, rfl⟩, he⟩

/-- Between two disks directories were made, and then files were written that no link leads to. -/
structure Hidden (d mid d' : Disk) (places : List (List Text)) : Prop where
  here : mid.here = d.here
  grows : Grows d.root mid.root
  writes : mid.Writes places d'
  links : ∀ q t, d.root.at? q = some (.link t) → ∀ r ∈ places, d.resolve ⟨['/'], q⟩ ≠ .ok ⟨['/'], r⟩

namespace Hidden

variable {d mid d' : Disk} {places : List (List Text)} {p : Path} {e : Entry} {content : ByteArray} {changed : Int}

theorem here_eq (h : Hidden d mid d' places) : d'.here = d.here := h.writes.here.trans h.here

theorem keeps (h : Hidden d mid d' places) : Keeps d.root d'.root := h.grows.toKeeps.trans h.writes.forth

theorem resolve_eq (h : Hidden d mid d' places) (p : Path) : d'.resolve p = d.resolve p :=
  Disk.resolve_of_keeps h.here_eq h.keeps p

theorem resolved_eq (h : Hidden d mid d' places) (p : Path) : d'.resolved p = d.resolved p := by
  unfold Disk.resolved
  rw [h.resolve_eq]

theorem look?_file_iff (h : Hidden d mid d' places) {q : List Text} (hq : q ∉ places) :
    d'.root.look? q = some (.file content changed) ↔ d.root.look? q = some (.file content changed) :=
  (h.writes.file q hq content changed).trans (h.grows.file q content changed).symm

/-- A path that does not stand for a place which was written leads on to what it led to. -/
theorem entry_forth (h : Hidden d mid d' places) (hp : ∀ r ∈ places, d.resolve p ≠ .ok ⟨['/'], r⟩)
    (he : d.entry p = .ok (.file content changed)) : d'.entry p = .ok (.file content changed) := by
  refine Disk.entry_eq_file_of_keeps h.here_eq h.keeps (fun ns content' changed' hns hlook => ?_) he
  exact (h.look?_file_iff fun hmem => hp ns hmem hns).mpr hlook

/-- It leads to nothing new but directories. -/
theorem entry_back (h : Hidden d mid d' places) (hp : ∀ r ∈ places, d.resolve p ≠ .ok ⟨['/'], r⟩)
    (hroot : ∀ t, d'.root ≠ .link t) (he : d'.entry p = .ok e) : ∃ e', mid.entry p = .ok e' ∧ e'.look = e.look := by
  refine Disk.entry_of_keeps h.writes.here.symm h.writes.back (fun ns content' changed' hns hlook => ?_) hroot he
  rw [h.resolve_eq] at hns
  exact (h.writes.file ns (fun hmem => hp ns hmem hns) content' changed').mp hlook

/-- A place that was not written shows the same as before, unless it is a link that leads to a file only since
the directories are there. -/
theorem shows_iff (h : Hidden d mid d' places) {q : List Text} (hq : q ∉ places) (hforward : Path.parentName ∉ q)
    (hstill : ∀ t, d.root.at? q = some (.link t) → mid.entry ⟨['/'], q⟩ = .ok (.file content changed) →
      d.entry ⟨['/'], q⟩ = .ok (.file content changed)) :
    d'.Shows q content changed ↔ d.Shows q content changed := by
  rw [Disk.shows_iff_look? hforward, Disk.shows_iff_look? hforward, h.look?_file_iff hq]
  refine or_congr_right (exists_congr fun t => ?_)
  rw [← h.keeps.link q t]
  refine and_congr_right fun hlink => ?_
  have hat := Entry.look?_eq_link.mp hlink
  constructor
  · intro he
    have hroot := Disk.root_ne_link he fun t => Entry.noConfusion
    obtain ⟨e', he', hlook⟩ := h.entry_back (h.links q t hat) hroot he
    obtain rfl : e' = .file content changed := by
      cases e' <;> cases hlook
      rfl
    exact hstill t hat he'
  · exact h.entry_forth (h.links q t hat)

end Hidden

end CodeManifest.Files
