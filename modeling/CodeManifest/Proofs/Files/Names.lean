import CodeManifest.Files.Change
import CodeManifest.Files.Disk
import CodeManifest.Proofs.Keyed
import CodeManifest.Proofs.Text.Pieces
import Mathlib.Tactic.Common

namespace CodeManifest

/-- A name that can stand in a directory. -/
structure IsName (n : Text) : Prop where
  ne_nil : n ≠ []
  noSlash : '/' ∉ n
  ne_self : n ≠ ['.']
  ne_parent : n ≠ Path.parentName

instance (n : Text) : Decidable (IsName n) :=
  decidable_of_iff (n ≠ [] ∧ '/' ∉ n ∧ n ≠ ['.'] ∧ n ≠ Path.parentName)
    ⟨fun h => ⟨h.1, h.2.1, h.2.2.1, h.2.2.2⟩, fun h => ⟨h.ne_nil, h.noSlash, h.ne_self, h.ne_parent⟩⟩

/-- A name on a path that was read. Unlike one in a directory it may lead back. -/
structure IsStep (n : Text) : Prop where
  ne_nil : n ≠ []
  noSlash : '/' ∉ n
  ne_self : n ≠ ['.']

theorem IsName.isStep {n : Text} (h : IsName n) : IsStep n := ⟨h.ne_nil, h.noSlash, h.ne_self⟩

namespace Path

variable {ns : List Text} {p : Path}

/-- A path as it comes of a text. -/
structure IsRead (p : Path) : Prop where
  root : p.root = [] ∨ p.root = ['/'] ∨ p.root = ['/', '/']
  steps : ∀ n ∈ p.parts, IsStep n

theorem isRead_ofText (t : Text) : (ofText t).IsRead where
  root := by
    unfold ofText
    dsimp only
    split_ifs
    · exact Or.inl rfl
    · exact Or.inr (Or.inr rfl)
    · exact Or.inr (Or.inl rfl)
  steps n hn := by
    obtain ⟨hpiece, hkept⟩ := List.mem_filter.mp hn
    obtain ⟨hne, hself⟩ : n ≠ [] ∧ n ≠ ['.'] := by simpa using hkept
    refine ⟨hne, fun hslash => ?_, hself⟩
    have hfalse := Text.eq_false_of_mem_split hpiece '/' hslash
    exact absurd hfalse (by simp)

/-- Steps that are joined begin with none of the slashes. -/
theorem takeWhile_join (h : ∀ n ∈ ns, IsStep n) : (Text.join "/" ns).takeWhile (· = '/') = [] := by
  cases ns with
  | nil => rfl
  | cons n ns =>
    have hn := h n List.mem_cons_self
    obtain ⟨c, n, rfl⟩ := List.exists_cons_of_ne_nil hn.ne_nil
    have hc : c ≠ '/' := fun he => hn.noSlash (he ▸ List.mem_cons_self)
    cases ns <;> simp [Text.join, List.intercalate, hc]

/-- Steps that are joined come apart, and none of them is left out. -/
theorem filter_split_join (h : ∀ n ∈ ns, IsStep n) :
    (Text.split (· = '/') (Text.join "/" ns)).filter (fun p => !p.isEmpty && p ≠ ['.']) = ns := by
  cases ns with
  | nil => rfl
  | cons n ns =>
    have hpieces : Text.split (· = '/') (Text.join "/" (n :: ns)) = n :: ns :=
      Text.split_join (by simp) fun m hm => (h m hm).noSlash
    rw [hpieces]
    refine List.filter_eq_self.mpr fun m hm => ?_
    simp [(h m hm).ne_nil, (h m hm).ne_self]

/-- Slashes in front leave no pieces. -/
theorem filter_split_slashes {r : Text} (h : ∀ c ∈ r, c = '/') (t : Text) :
    (Text.split (· = '/') (r ++ t)).filter (fun p => !p.isEmpty && p ≠ ['.']) =
      (Text.split (· = '/') t).filter (fun p => !p.isEmpty && p ≠ ['.']) := by
  induction r with
  | nil => rfl
  | cons c r ih =>
    obtain ⟨rfl, hr⟩ := List.forall_mem_cons.mp h
    rw [List.cons_append, Text.split_cons_of_pos (by simp), List.filter_cons_of_neg (by simp), ih hr]

/-- A path that was read is read back from what is written of it. -/
theorem IsRead.ofText_render (h : p.IsRead) : ofText p.render = p := by
  obtain ⟨root, ns⟩ := p
  by_cases hempty : root = [] ∧ ns = []
  · obtain ⟨rfl, rfl⟩ := hempty
    rfl
  · have hrender : render ⟨root, ns⟩ = root ++ Text.join "/" ns := by
      unfold render
      rw [if_neg (by simpa using hempty)]
    have hroot : ∀ c ∈ root, c = '/' := by
      rcases h.root with h | h | h <;> simp [show root = _ from h]
    have hslashes : (root ++ Text.join "/" ns).takeWhile (· = '/') = root := by
      rw [List.takeWhile_append_of_pos (by simpa using hroot), takeWhile_join h.steps, List.append_nil]
    unfold ofText
    rw [hrender, hslashes, filter_split_slashes hroot, filter_split_join h.steps]
    rcases h.root with h | h | h <;> rw [show root = _ from h] <;> rfl

/-- A path of names is read back. -/
theorem ofText_render (h : ∀ n ∈ ns, IsName n) : ofText (render ⟨['/'], ns⟩) = ⟨['/'], ns⟩ :=
  IsRead.ofText_render ⟨Or.inr (Or.inl rfl), fun n hn => (h n hn).isStep⟩

end Path

/-- A disk as it can be: in each directory a name stands once, and can stand there. -/
structure Files.Disk.IsProper (d : Disk) : Prop where
  tree : d.root.IsTree
  names : ∀ ns e, d.root.at? ns = some e → ∀ n ∈ ns, IsName n

namespace Files.Disk

theorem isProper_file (content : ByteArray) (changed : Int) : IsProper { root := .file content changed } where
  tree := .file content changed
  names ns x h n hn := by
    cases ns with
    | nil => cases hn
    | cons m ns => cases h

theorem isProper_link (target : Text) : IsProper { root := .link target } where
  tree := .link target
  names ns x h n hn := by
    cases ns with
    | nil => cases hn
    | cons m ns => cases h

theorem isProper_directory {es : List (Text × Entry)} (hkeys : (Keyed.keys es).Nodup)
    (hinside : ∀ e ∈ es, IsName e.1 ∧ IsProper { root := e.2 }) : IsProper { root := .directory es } where
  tree := .directory es hkeys fun e he => (hinside e he).2.tree
  names ns x h n hn := by
    cases ns with
    | nil => cases hn
    | cons m ns =>
      obtain ⟨c, hc, hbelow⟩ := Option.bind_eq_some_iff.mp h
      obtain ⟨hname, hproper⟩ := hinside (m, c) (Keyed.mem_of_get? hc)
      rcases List.mem_cons.mp hn with rfl | hn
      · exact hname
      · exact hproper.names ns x hbelow n hn

end Files.Disk

end CodeManifest
