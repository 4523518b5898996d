import CodeManifest.Proofs.Files.Names
import CodeManifest.Proofs.Files.Way

namespace CodeManifest

namespace Path

variable {base p r : Path}

theorem relativeTo?_eq_some :
    base.relativeTo? p = some r ↔ r.root = [] ∧ p = ⟨base.root, base.parts ++ r.parts⟩ := by
  obtain ⟨root, parts⟩ := p
  obtain ⟨root', below⟩ := r
  unfold relativeTo?
  split_ifs with hroot
  · simp only [Option.map_eq_some_iff, List.isPrefixOf?_eq_some_iff_append_eq, Path.mk.injEq]
    constructor
    · rintro ⟨ns, rfl, rfl, rfl⟩
      exact ⟨rfl, hroot.symm, rfl⟩
    · rintro ⟨rfl, -, rfl⟩
      exact ⟨below, rfl, rfl, rfl⟩
  · simp only [Path.mk.injEq, false_iff]
    rintro ⟨-, he, -⟩
    exact hroot he.symm

/-- What leads from one path to another leads there. -/
theorem join_of_relativeTo? (h : base.relativeTo? p = some r) : base.join r = p := by
  obtain ⟨hroot, rfl⟩ := relativeTo?_eq_some.mp h
  simp [join, isAbsolute, hroot]

theorem join_of_isAbsolute (h : p.isAbsolute = true) : base.join p = p := by rw [join, if_pos h]

theorem isRead_of_relativeTo? (h : base.relativeTo? p = some r) (hp : ∀ n ∈ p.parts, IsStep n) : r.IsRead := by
  obtain ⟨hroot, rfl⟩ := relativeTo?_eq_some.mp h
  exact ⟨Or.inl hroot, fun n hn => hp n (List.mem_append_right _ hn)⟩

end Path

namespace Files

/-- Links and paths are read alike, so what names stand for is made of steps if they are. -/
theorem isStep_of_resolveFrom {root : Entry} {opened : List (List Text)} {done todo place : List Text}
    (hdone : ∀ n ∈ done, IsStep n) (htodo : ∀ n ∈ todo, IsStep n)
    (h : resolveFrom root opened done todo = .ok place) : ∀ n ∈ place, IsStep n := by
  fun_induction resolveFrom root opened done todo generalizing place with
  | case1 opened done =>
    cases h
    exact hdone
  | case2 opened done ns ih =>
    obtain ⟨-, hns⟩ := List.forall_mem_cons.mp htodo
    exact ih (fun n hn => hdone n (List.dropLast_subset done hn)) hns h
  | case3 opened done n ns hn t hat hopened => cases h
  | case4 opened done n ns hn t hat hopened middle hmiddle ihinside ihrest =>
    obtain ⟨-, hns⟩ := List.forall_mem_cons.mp htodo
    have hstart : ∀ n ∈ origin done (.ofText t), IsStep n := by
      unfold origin
      split
      · exact fun n hn => absurd hn List.not_mem_nil
      · exact hdone
    exact ihrest (ihinside hstart (Path.isRead_ofText t).steps hmiddle) hns h
  | case5 opened done n ns hn t hat hopened circle hcircle ih => cases h
  | case6 opened done n ns hn hlink ih =>
    obtain ⟨hstep, hns⟩ := List.forall_mem_cons.mp htodo
    exact ih (List.forall_mem_append.mpr ⟨hdone, List.forall_mem_singleton.mpr hstep⟩) hns h

namespace Disk

variable {d : Disk} {start root p q : Path} {name : Text}

theorem resolved_eq_ok : d.resolved p = .ok q ↔ ∃ ns, resolveFrom d.root [] [] (d.names p) = .ok ns ∧ q = ⟨['/'], ns⟩ := by
  unfold resolved resolve
  cases resolveFrom d.root [] [] (d.names p) with
  | error ns => simp
  | ok ns => simp [eq_comm]

theorem isStep_of_resolved (hp : p.IsRead) (habsolute : p.isAbsolute = true) (h : d.resolved p = .ok q) :
    ∀ n ∈ q.parts, IsStep n := by
  obtain ⟨ns, hns, rfl⟩ := resolved_eq_ok.mp h
  have hnames : d.names p = p.parts := by rw [names, Path.join_of_isAbsolute habsolute]
  rw [hnames] at hns
  exact isStep_of_resolveFrom (fun n hn => absurd hn List.not_mem_nil) hp.steps hns

/-- The paths denote one file: they stand for one place, and what can be read at both is the same. -/
structure SameFile (d : Disk) (p q : Path) : Prop where
  place : d.resolved p = d.resolved q
  content : ∀ x y, d.read p = .ok x → d.read q = .ok y → x = y

theorem sameFile_of_resolved (h : d.resolved p = d.resolved q) : SameFile d p q :=
  ⟨h, fun _ _ hx hy => eq_of_read h hx hy⟩

/-- The three ways to name a file: by its path as it is, and by what is below the root of that path or of the place
that it stands for. -/
inductive NamedBy (d : Disk) (root p : Path) : Path → Prop
  | itself : NamedBy d root p p
  | below {named : Path} (h : root.relativeTo? p = some named) : NamedBy d root p named
  | place {q named : Path} (hp : p.isAbsolute = true) (hq : d.resolved p = .ok q)
      (h : root.relativeTo? q = some named) : NamedBy d root p named

theorem exists_namedBy (h : d.nameWithin root p = .ok name) :
    ∃ named, name = named.render ∧ NamedBy d root p named := by
  obtain ⟨named, hnamed, hname⟩ := exists_of_bind_eq_ok h
  cases hname
  refine ⟨named, rfl, ?_⟩
  unfold Path.within at hnamed
  split at hnamed
  next habsolute =>
    obtain ⟨q, hq, hname⟩ := exists_of_bind_eq_ok hnamed
    cases hname
    cases hbelow : root.relativeTo? p with
    | some below => exact .below hbelow
    | none =>
      cases hplace : root.relativeTo? q with
      | some below => exact .place habsolute hq hplace
      | none => exact .itself
  next =>
    cases hnamed
    exact .itself

/-- A file has a name, unless its path is absolute and leads around in a circle. -/
theorem nameWithin_cases (d : Disk) (root p : Path) :
    (∃ name, d.nameWithin root p = .ok name) ∨
      p.isAbsolute = true ∧ ∃ c, d.resolved p = .error (.circle c) ∧ d.nameWithin root p = .error (.circle c) := by
  unfold nameWithin Path.within
  cases habsolute : p.isAbsolute with
  | false => exact Or.inl ⟨p.render, rfl⟩
  | true =>
    rw [if_pos rfl]
    cases hresolved : d.resolved p with
    | ok q => exact Or.inl ⟨_, rfl⟩
    | error f =>
      obtain ⟨c, rfl⟩ := exists_circle_of_resolved hresolved
      exact Or.inr ⟨rfl, c, rfl, rfl⟩

theorem exists_circle_of_nameWithin {f : Failure} (h : d.nameWithin root p = .error f) : ∃ c, f = .circle c := by
  rcases nameWithin_cases d root p with ⟨name, hname⟩ | ⟨-, c, -, hcircle⟩
  · cases hname.symm.trans h
  · exact ⟨c, Except.error.inj (h.symm.trans hcircle)⟩

theorem NamedBy.isRead {named : Path} (h : NamedBy d root p named) (hp : p.IsRead) : named.IsRead := by
  cases h with
  | itself => exact hp
  | below h => exact Path.isRead_of_relativeTo? h hp.steps
  | place habsolute hq h => exact Path.isRead_of_relativeTo? h (isStep_of_resolved hp habsolute hq)

/-- From the root, the name leads to the path of the file or to the place that this path stands for. -/
theorem NamedBy.join_eq {named : Path} (h : NamedBy d root p named) (hroot : root.isAbsolute = true) :
    root.join named = root.join p ∨ p.isAbsolute = true ∧ d.resolved p = .ok (root.join named) := by
  cases h with
  | itself => exact Or.inl rfl
  | below h =>
    have habsolute : p.isAbsolute = true := by
      obtain ⟨-, rfl⟩ := Path.relativeTo?_eq_some.mp h
      exact hroot
    exact Or.inl ((Path.join_of_relativeTo? h).trans (Path.join_of_isAbsolute habsolute).symm)
  | place habsolute hq h => exact Or.inr ⟨habsolute, hq.trans (congrArg _ (Path.join_of_relativeTo? h).symm)⟩

theorem isAbsolute_of_resolved (h : d.resolved start = .ok root) : root.isAbsolute = true := by
  obtain ⟨ns, -, rfl⟩ := resolved_eq_ok.mp h
  rfl

theorem join_nameWithin (hroot : root.isAbsolute = true) (hp : p.IsRead) (h : d.nameWithin root p = .ok name) :
    root.join (.ofText name) = root.join p ∨
      p.isAbsolute = true ∧ d.resolved p = .ok (root.join (.ofText name)) := by
  obtain ⟨named, rfl, hnamed⟩ := exists_namedBy h
  rw [(hnamed.isRead hp).ofText_render]
  exact hnamed.join_eq hroot

/-- The name of a file leads to the place for which its path stands. -/
theorem resolved_nameWithin (hroot : root.isAbsolute = true) (hp : p.IsRead) (h : d.nameWithin root p = .ok name) :
    d.resolved (root.join (.ofText name)) = d.resolved (root.join p) := by
  rcases join_nameWithin hroot hp h with hjoin | ⟨habsolute, hplace⟩
  · rw [hjoin]
  · rw [resolved_resolved hplace, Path.join_of_isAbsolute habsolute, hplace]

/-- What can be read of a file is read under its name. -/
theorem read_nameWithin {x : ByteArray × Int} (hroot : root.isAbsolute = true) (hp : p.IsRead)
    (h : d.nameWithin root p = .ok name) (hx : d.read (root.join p) = .ok x) :
    d.read (root.join (.ofText name)) = .ok x := by
  rcases join_nameWithin hroot hp h with hjoin | ⟨habsolute, hplace⟩
  · rw [hjoin, hx]
  · obtain ⟨content, changed⟩ := x
    rw [Path.join_of_isAbsolute habsolute] at hx
    have hentry := read_eq_ok.mp hx
    obtain ⟨ns, hns, hdirect, hat⟩ := resolved_of_entry (root_ne_link hentry (by simp)) hentry
    rw [hplace] at hns
    rw [Except.ok.inj hns]
    exact read_eq_ok.mpr (entry_of_direct hdirect hat)

/-- A file below the root goes by what follows behind the root. -/
theorem nameWithin_below {below : List Text} (hroot : root.isAbsolute = true)
    (hp : p = ⟨root.root, root.parts ++ below⟩) (h : d.nameWithin root p = .ok name) :
    name = Path.render ⟨[], below⟩ := by
  have hbelow : root.relativeTo? p = some ⟨[], below⟩ := Path.relativeTo?_eq_some.mpr ⟨rfl, hp⟩
  have habsolute : p.isAbsolute = true := by
    rw [hp]
    exact hroot
  unfold nameWithin Path.within at h
  rw [if_pos habsolute] at h
  cases hresolved : d.resolved p with
  | error f =>
    rw [hresolved] at h
    cases h
  | ok q =>
    rw [hresolved, hbelow] at h
    cases h
    rfl

end Disk

end Files

end CodeManifest
