import CodeManifest.Files.Change
import CodeManifest.Proofs.Files.Keep

namespace CodeManifest.Files

/-- A directory stands in one, or is the root. -/
theorem Entry.directory_dropLast {e : Entry} {ns : List Text} {es : List (Text × Entry)}
    (h : e.at? ns = some (.directory es)) : ∃ es', e.at? ns.dropLast = some (.directory es') := by
  rcases List.eq_nil_or_concat' ns with rfl | ⟨q, n, rfl⟩
  · exact ⟨es, h⟩
  · rw [List.dropLast_concat]
    exact HasRoom.of_at? h q n rfl

section Ways

variable {root : Entry} {links : Nat} {done ns place : List Text} {n : Text} {o : Option Entry}

/-- Behind a directory a way goes on from there, with the links that are left. -/
theorem exists_follow_append {es : List (Text × Entry)}
    (h : follow root links done ns = .ok (place, some (.directory es))) :
    ∃ rest, ∀ ms, follow root links done (ns ++ ms) = follow root rest place ms := by
  fun_induction follow root links done ns with
  | case1 links done =>
    obtain ⟨rfl, -⟩ := Prod.mk.inj (Except.ok.inj h)
    exact ⟨links, fun ms => rfl⟩
  | case2 links done ns es' hat ih =>
    obtain ⟨rest, hms⟩ := ih h
    exact ⟨rest, fun ms => (follow_parent hat (ns ++ ms)).trans (hms ms)⟩
  | case3 links done n ns es' hat hn hget hlast => cases h
  | case4 links done n ns es' hat hn hget hlast => cases h
  | case5 done n ns es' hat hn t hget => cases h
  | case6 done n ns es' hat hn t hget links p ih =>
    obtain ⟨rest, hms⟩ := ih h
    refine ⟨rest, fun ms => ?_⟩
    rw [List.cons_append, follow_link hat hn hget, ← List.append_assoc]
    exact hms ms
  | case7 links done n ns es' hat hn e hlink hget ih =>
    obtain ⟨rest, hms⟩ := ih h
    exact ⟨rest, fun ms => (follow_child hat hn hget hlink (ns ++ ms)).trans (hms ms)⟩
  | case8 links done n ns content changed hfile => cases h
  | case9 links done n ns hdir hfile => cases h

/-- A way comes to its last name in a directory. -/
theorem exists_directory_of_follow (h : follow root links done (ns ++ [n]) = .ok (place, o)) :
    ∃ above es, follow root links done ns = .ok (above, some (.directory es)) := by
  fun_induction follow root links done ns with
  | case1 links done =>
    rw [List.nil_append, follow] at h
    split at h
    · rename_i es hat
      exact ⟨done, es, by rw [hat]⟩
    · cases h
    · cases h
  | case2 links done ns es' hat ih =>
    rw [List.cons_append, follow_parent hat] at h
    exact ih h
  | case3 links done m ns es' hat hn hget hlast =>
    rw [List.cons_append, follow_free hat hn hget] at h
    simp at h
  | case4 links done m ns es' hat hn hget hlast =>
    rw [List.cons_append, follow_free hat hn hget] at h
    simp at h
  | case5 done m ns es' hat hn t hget =>
    rw [List.cons_append, follow_link_zero hat hn hget] at h
    cases h
  | case6 done m ns es' hat hn t hget links p ih =>
    rw [List.cons_append, follow_link hat hn hget, ← List.append_assoc] at h
    exact ih h
  | case7 links done m ns es' hat hn e hlink hget ih =>
    rw [List.cons_append, follow_child hat hn hget hlink] at h
    exact ih h
  | case8 links done m ns content changed hfile =>
    rw [List.cons_append, follow_file hfile] at h
    cases h
  | case9 links done m ns hdir hfile =>
    rw [List.cons_append, follow] at h
    split at h
    · rename_i hat
      exact absurd hat (hdir _)
    · cases h
    · cases h

/-- The last name of a way that does not end in a directory is that of its place, unless it is a link, which
stands for the place itself. -/
theorem last_of_follow (hdone : IsDirect root done) (h : follow root links done (ns ++ [n]) = .ok (place, o))
    (ho : ∀ es, o ≠ some (.directory es)) :
    ∃ above es, follow root links done ns = .ok (above, some (.directory es)) ∧
      (place = above ++ [n] ∨ ∃ t, root.at? (above ++ [n]) = some (.link t) ∧
        resolveFrom root [] [] (above ++ [n]) = .ok place) := by
  obtain ⟨above, es, habove⟩ := exists_directory_of_follow h
  obtain ⟨rest, happend⟩ := exists_follow_append habove
  obtain ⟨hdirect, hat, -⟩ := follow_spec hdone habove
  rw [happend] at h
  have hlast := h
  rw [follow, ← hat] at h
  dsimp only at h
  have hbelow : root.at? (above ++ [n]) = Keyed.get? n es := Entry.at?_child hat.symm n
  refine ⟨above, es, habove, ?_⟩
  split at h
  · -- The directory above a directory is one.
    rw [follow] at h
    obtain ⟨es', hes'⟩ := Entry.directory_dropLast hat.symm
    exact absurd ((Prod.mk.inj (Except.ok.inj h)).2.symm.trans hes') (ho es')
  · split at h
    · left
      simp at h
      exact h.1.symm
    · rename_i t hget
      right
      refine ⟨t, hbelow.trans hget, ?_⟩
      have hfront : resolveFrom root [] [] (above ++ [n]) = resolveFrom root [] above [n] :=
        resolveFrom_append (by simpa using hdirect) [n]
      rw [hfront]
      exact resolveFrom_of_follow hlast
    · left
      rw [follow] at h
      cases h
      rfl

end Ways

namespace Entry

theorem IsTree.at? {e x : Entry} {ns : List Text} (he : e.IsTree) (h : e.at? ns = some x) : x.IsTree := by
  induction ns generalizing e with
  | nil => exact Option.some.inj h ▸ he
  | cons n ns ih =>
    rw [Entry.at?] at h
    obtain ⟨c, hc, hbelow⟩ := Option.bind_eq_some_iff.mp h
    obtain ⟨es, rfl, hget⟩ := isDirectory_of_child? hc
    cases he with
    | directory _ names inside => exact ih (inside _ (Keyed.mem_of_get? hget)) hbelow

theorem IsTree.put {e new : Entry} (he : e.IsTree) (hnew : new.IsTree) (ns : List Text) :
    (e.put ns new).IsTree := by
  induction ns generalizing e with
  | nil => exact hnew
  | cons n ns ih =>
    cases he with
    | file content changed => cases ns <;> exact .file content changed
    | link target => cases ns <;> exact .link target
    | directory es names inside =>
      cases ns with
      | nil =>
        refine .directory _ ?_ fun p hp => ?_
        · rw [Keyed.keys_put]
          split
          · exact names
          · rename_i hn
            refine List.nodup_append.mpr ⟨names, by simp, fun a ha b hb => ?_⟩
            rintro rfl
            exact hn (List.mem_singleton.mp hb ▸ ha)
        · rcases Keyed.mem_of_mem_put hp with rfl | hp
          · exact hnew
          · exact inside p hp
      | cons m ns =>
        refine .directory _ ?_ fun p hp => ?_
        · rw [Keyed.keys_modify]
          exact names
        · rw [Keyed.modify_eq_map names] at hp
          obtain ⟨q, hq, rfl⟩ := List.mem_map.mp hp
          dsimp only
          split
          · exact ih (inside q hq)
          · exact inside q hq

end Entry

/-- The second tree is the first with further directories. -/
structure Grows (a b : Entry) : Prop extends Keeps a b where
  file : ∀ q content changed, a.look? q = some (.file content changed) ↔ b.look? q = some (.file content changed)
  tree : a.IsTree → b.IsTree

namespace Grows

variable {a b c : Entry}

theorem refl (a : Entry) : Grows a a := ⟨.refl a, fun _ _ _ => Iff.rfl, id⟩

theorem trans (hab : Grows a b) (hbc : Grows b c) : Grows a c where
  toKeeps := hab.toKeeps.trans hbc.toKeeps
  file q content changed := (hab.file q content changed).trans (hbc.file q content changed)
  tree := hbc.tree ∘ hab.tree

/-- A directory is new. -/
theorem put {ns : List Text} (hroom : a.HasRoom ns) (hfree : a.at? ns = none) :
    Grows a (a.put ns (.directory [])) where
  toKeeps := by
    have hlook : a.look? ns = none := Entry.look?_eq_none.mpr hfree
    refine .put hroom (by simp [hlook]) (by simp [hlook]) fun q t => ?_
    cases q <;> simp [Entry.look?, Entry.at?, Entry.child?, Entry.look, Keyed.get?]
  file q content changed := by
    rw [Entry.look?_put hroom]
    split
    · rename_i hpre
      obtain ⟨r, rfl⟩ := hpre
      have hbefore : a.look? (ns ++ r) = none := by
        rw [Entry.look?_eq_none, Entry.at?_append, hfree]
        rfl
      rw [hbefore, List.drop_left]
      cases r <;> simp [Entry.look?, Entry.at?, Entry.child?, Entry.look, Keyed.get?]
    · exact Iff.rfl
  tree h := h.put (.directory [] (by simp [Keyed.keys]) (by simp)) ns

end Grows

namespace Disk

variable {d d' : Disk} {p : Path} {ns : List Text} {n : Text}

/-- A directory that is made is new, and in a directory. -/
theorem exists_of_makeDirectory (h : d.makeDirectory p = .ok d') :
    ∃ ns n above es, d.names p = ns ++ [n] ∧ follow d.root maxLinks [] ns = .ok (above, some (.directory es)) ∧
      n ≠ Path.parentName ∧ Keyed.get? n es = none ∧
      d' = { d with root := d.root.put (above ++ [n]) (.directory []) } := by
  unfold makeDirectory at h
  rcases List.eq_nil_or_concat' (d.names p) with hnames | ⟨ns, n, hnames⟩
  · simp [hnames] at h
  · simp only [hnames, List.getLast?_concat, List.dropLast_concat] at h
    split at h
    · rename_i m above es hm hfollow
      obtain rfl := Option.some.inj hm
      split at h
      · cases h
      · rename_i hfree
        simp only [Bool.or_eq_true, decide_eq_true_eq, Option.isSome_iff_ne_none, not_or, not_not, ne_eq] at hfree
        exact ⟨ns, n, above, es, hnames, hfollow, hfree.1, hfree.2, (Except.ok.inj h).symm⟩
    all_goals cases h

theorem root_ne_link_of_follow {links : Nat} {place : List Text} {es : List (Text × Entry)} {root : Entry}
    (h : follow root links [] ns = .ok (place, some (.directory es))) (t : Text) : root ≠ .link t := by
  rintro rfl
  cases ns with
  | nil =>
    rw [follow] at h
    cases h
  | cons n ns =>
    rw [follow] at h
    cases h

theorem makeDirectory_grows (h : d.makeDirectory p = .ok d') : Grows d.root d'.root := by
  obtain ⟨ns, n, above, es, -, hfollow, hn, hfree, rfl⟩ := exists_of_makeDirectory h
  obtain ⟨-, hat, -⟩ := follow_spec (.nil (root_ne_link_of_follow hfollow)) hfollow
  exact .put (.append_singleton hat.symm n) ((Entry.at?_child hat.symm n).trans hfree)

/-- A directory that was made is there. -/
theorem isDirectory_of_makeDirectory (h : d.makeDirectory p = .ok d') : d'.isDirectory p = true := by
  have hgrows := makeDirectory_grows h
  obtain ⟨ns, n, above, es, hnames, hfollow, hn, hfree, rfl⟩ := exists_of_makeDirectory h
  have hroot := root_ne_link_of_follow hfollow
  obtain ⟨rest, happend⟩ := exists_follow_append hfollow
  obtain ⟨-, hat, -⟩ := follow_spec (.nil hroot) hfollow
  have hfind : follow d.root maxLinks [] (d.names p) = .ok (above ++ [n], none) := by
    rw [hnames, happend, follow_free hat.symm hn hfree]
    rfl
  have hroom : d.root.HasRoom (above ++ [n]) := .append_singleton hat.symm n
  have hnew : (d.root.put (above ++ [n]) (.directory [])).look? (above ++ [n]) = some .directory := by
    rw [Entry.look?_put hroom, if_pos List.prefix_rfl]
    simp [Entry.look?, Entry.at?, Entry.look]
  obtain ⟨inside, hinside⟩ := Entry.look?_eq_directory.mp hnew
  have hfind' := follow_of_keeps hgrows.toKeeps (.nil hroot) hfind fun t ht => by
    rw [hinside] at ht
    cases ht
  rw [hinside] at hfind'
  unfold isDirectory
  rw [entry_eq_ok.mpr ⟨above ++ [n], hfind'⟩]
  rfl

/-- A directory that is there is not made again. -/
theorem makeDirectory_of_isDirectory (h : d.isDirectory p = true) :
    d.makeDirectory p = .error ⟨.exists, p.render⟩ := by
  obtain ⟨place, es', hfind⟩ := isDirectory_eq_true.mp h
  unfold find at hfind
  unfold makeDirectory
  rcases List.eq_nil_or_concat' (d.names p) with hnames | ⟨ns, n, hnames⟩
  · simp [hnames]
  · rw [hnames] at hfind ⊢
    obtain ⟨above, es, hfollow⟩ := exists_directory_of_follow hfind
    obtain ⟨rest, happend⟩ := exists_follow_append hfollow
    obtain ⟨-, hat, -⟩ := follow_spec (.nil (root_ne_link_of_follow hfollow)) hfollow
    simp only [List.getLast?_concat, List.dropLast_concat, hfollow]
    rw [if_pos]
    by_cases hn : n = Path.parentName
    · simp [hn]
    · cases hget : Keyed.get? n es with
      | some x => simp
      | none =>
        rw [happend, follow_free hat.symm hn hget] at hfind
        cases hfind

theorem makeDirectoriesFor_of_isDirectory (h : d.isDirectory p = true) (depth : Nat) :
    d.makeDirectoriesFor depth p = (d, none) := by
  unfold makeDirectoriesFor
  rw [makeDirectory_of_isDirectory h]
  simp [h]

/-- Nothing is made where everything is there. -/
theorem makeDirectories_of_isDirectory (h : d.isDirectory p = true) : d.makeDirectories p = (d, none) :=
  makeDirectoriesFor_of_isDirectory h p.parts.length

/-- What is made are directories. -/
theorem makeDirectoriesFor_grows (d : Disk) (depth : Nat) (p : Path) :
    Grows d.root (d.makeDirectoriesFor depth p).1.root ∧ (d.makeDirectoriesFor depth p).1.here = d.here := by
  have hone {d d' : Disk} {p : Path} (h : d.makeDirectory p = .ok d') :
      Grows d.root d'.root ∧ d'.here = d.here := by
    refine ⟨makeDirectory_grows h, ?_⟩
    obtain ⟨ns, n, above, es, -, -, -, -, rfl⟩ := exists_of_makeDirectory h
    rfl
  fun_induction makeDirectoriesFor d depth p with
  | case1 depth p d' hmade => exact hone hmade
  | case2 p shown hmissing => exact ⟨.refl d.root, rfl⟩
  | case3 p shown depth hmissing d' e habove ih =>
    rw [habove] at ih
    exact ih
  | case4 p shown depth hmissing d' habove d'' hmade ih =>
    rw [habove] at ih
    obtain ⟨hgrows, hhere⟩ := hone hmade
    exact ⟨ih.1.trans hgrows, hhere.trans ih.2⟩
  | case5 p shown depth hmissing d' habove e hrefused ih =>
    rw [habove] at ih
    exact ih
  | case6 depth p e hrefused => exact ⟨.refl d.root, rfl⟩

theorem isDirectory_of_makeDirectoriesFor {depth : Nat} (h : d.makeDirectoriesFor depth p = (d', none)) :
    d'.isDirectory p = true := by
  fun_induction makeDirectoriesFor d depth p with
  | case1 depth p d'' hmade =>
    obtain ⟨rfl, -⟩ := Prod.mk.inj h
    exact isDirectory_of_makeDirectory hmade
  | case2 p shown hmissing => cases h
  | case3 p shown depth hmissing d'' e habove ih => cases h
  | case4 p shown depth hmissing d'' habove d''' hmade ih =>
    obtain ⟨rfl, -⟩ := Prod.mk.inj h
    exact isDirectory_of_makeDirectory hmade
  | case5 p shown depth hmissing d'' habove e hrefused ih =>
    obtain ⟨rfl, hnone⟩ := Prod.mk.inj h
    split at hnone
    · rename_i hthere
      exact (Bool.and_eq_true_iff.mp hthere).2
    · cases hnone
  | case6 depth p e hrefused =>
    obtain ⟨rfl, hnone⟩ := Prod.mk.inj h
    split at hnone
    · rename_i hthere
      exact hthere
    · cases hnone

/-- What is made on the way to a path are directories. -/
theorem grows_of_makeDirectories {e : Option Error} (h : d.makeDirectories p = (d', e)) :
    Grows d.root d'.root ∧ d'.here = d.here := by
  have hgrows := makeDirectoriesFor_grows d p.parts.length p
  unfold makeDirectories at h
  rw [h] at hgrows
  exact hgrows

/-- Afterwards the directory is there. -/
theorem isDirectory_of_makeDirectories (h : d.makeDirectories p = (d', none)) : d'.isDirectory p = true :=
  isDirectory_of_makeDirectoriesFor h

end Disk

end CodeManifest.Files
