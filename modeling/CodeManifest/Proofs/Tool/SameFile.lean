import CodeManifest.Proofs.Files.Within
import CodeManifest.Proofs.Tool.Offer
import Mathlib

namespace CodeManifest.Tool

open Files Source

variable {d : Disk} {s : Scanner}

/-- A file with symbols can be read. -/
theorem Scanner.exists_read_of_parsed {file path : Text} {symbols : FileSymbols}
    (h : s.parsed d file = .ok (path, symbols)) : ∃ x, d.read (s.root.join (.ofText file)) = .ok x := by
  obtain ⟨-, l, t, hsource, -⟩ := eq_of_parsed h
  unfold source at hsource
  split at hsource
  · cases hsource
  · split at hsource
    · cases hsource
    next content changed hread => exact ⟨(content, changed), hread⟩

/-- The scan finds a tool for each key that is offered, in a file that goes by the name in the key. -/
theorem exists_tool_of_offers {files : List Text} {file path n : Text} {symbols : FileSymbols} {x : Symbol}
    {t : Descriptor} (hfile : file ∈ files) (hparsed : s.parsed d file = .ok (path, symbols))
    (hx : x ∈ symbols.candidates) (ht : Offers s.builder path x n t) :
    ∃ u ∈ (scan d s files).tools, u.key = t.key ∧ ∃ file' ∈ files, ∃ symbols' y,
      s.parsed d file' = .ok (path, symbols') ∧ y ∈ symbols'.candidates ∧ Offers s.builder path y n u := by
  have hcandidate : (path, x) ∈ candidates d s files := mem_candidates.mpr ⟨file, hfile, symbols, hparsed, hx⟩
  have hkey : (path, n) ∈ (scan d s files).tools.map Descriptor.key := by
    rw [scan_tools, mem_keys_fresh]
    exact ⟨mem_keys_offers.mpr ⟨x, t, hcandidate, ht⟩, List.not_mem_nil⟩
  obtain ⟨u, hu, huKey⟩ := List.mem_map.mp hkey
  have huOffers : u ∈ offers d s files := by
    rw [scan_tools] at hu
    exact mem_of_mem_fresh hu
  obtain ⟨⟨path', y⟩, hy, hoffer⟩ := List.mem_filterMap.mp huOffers
  obtain ⟨n', hoffers⟩ := offer?_eq_some_iff.mp hoffer
  obtain ⟨rfl, rfl⟩ : path' = path ∧ n' = n := Prod.mk.inj (hoffers.key_eq.symm.trans huKey)
  obtain ⟨file', hfile', symbols', hparsed', hy'⟩ := mem_candidates.mp hy
  exact ⟨u, hu, huKey.trans ht.key_eq.symm, file', hfile', symbols', y, hparsed', hy', hoffers⟩

/-- Within a root that is resolved, each file has a name, unless its path is absolute and leads around in a circle.
The name leads from the root to the place of the file, and to what can be read there; files of one name are one file;
and a path that begins with the root goes by what follows. So where a scan leaves out a tool, it has found one with
its key in the same file. -/
theorem names_keep_files {start root : Path} (hroot : d.resolved start = .ok root) :
    (∀ file : Text, (∃ name, d.nameWithin root (.ofText file) = .ok name) ∨
      (Path.ofText file).isAbsolute = true ∧ ∃ c, d.resolved (.ofText file) = .error (.circle c) ∧
        d.nameWithin root (.ofText file) = .error (.circle c)) ∧
    (∀ file name : Text, d.nameWithin root (.ofText file) = .ok name →
      d.SameFile (root.join (.ofText name)) (root.join (.ofText file)) ∧
      ∀ x, d.read (root.join (.ofText file)) = .ok x → d.read (root.join (.ofText name)) = .ok x) ∧
    (∀ file file' name : Text, d.nameWithin root (.ofText file) = .ok name →
      d.nameWithin root (.ofText file') = .ok name →
      d.SameFile (root.join (.ofText file)) (root.join (.ofText file'))) ∧
    (∀ (file name : Text) (below : List Text), Path.ofText file = ⟨root.root, root.parts ++ below⟩ →
      d.nameWithin root (.ofText file) = .ok name →
      (Path.ofText name).isAbsolute = false ∧ root.join (.ofText name) = .ofText file) ∧
    ∀ (s : Scanner) (files : List Text), s.root = root → ∀ file ∈ files, ∀ path symbols x n t,
      s.parsed d file = .ok (path, symbols) → x ∈ symbols.candidates → Offers s.builder path x n t →
      ∃ u ∈ (scan d s files).tools, u.key = t.key ∧ ∃ file' ∈ files, ∃ symbols' y,
        s.parsed d file' = .ok (path, symbols') ∧ y ∈ symbols'.candidates ∧ Offers s.builder path y n u ∧
        d.SameFile (root.join (.ofText file)) (root.join (.ofText file')) ∧
        ∃ content, d.read (root.join (.ofText file)) = .ok content ∧
          d.read (root.join (.ofText file')) = .ok content := by
  have habsolute := Disk.isAbsolute_of_resolved hroot
  have hplace {file name : Text} (h : d.nameWithin root (.ofText file) = .ok name) :
      d.resolved (root.join (.ofText name)) = d.resolved (root.join (.ofText file)) :=
    Disk.resolved_nameWithin habsolute (Path.isRead_ofText file) h
  have hsame {file file' name : Text} (h : d.nameWithin root (.ofText file) = .ok name)
      (h' : d.nameWithin root (.ofText file') = .ok name) :
      d.SameFile (root.join (.ofText file)) (root.join (.ofText file')) :=
    Disk.sameFile_of_resolved ((hplace h).symm.trans (hplace h'))
  refine ⟨fun file => Disk.nameWithin_cases d root _, ?_, fun file file' name h h' => hsame h h', ?_, ?_⟩
  · intro file name h
    exact ⟨Disk.sameFile_of_resolved (hplace h), fun x => Disk.read_nameWithin habsolute (Path.isRead_ofText file) h⟩
  · intro file name below hfile h
    have hbelow : Path.IsRead ⟨[], below⟩ := by
      refine ⟨Or.inl rfl, fun n hn => (Path.isRead_ofText file).steps n ?_⟩
      rw [hfile]
      exact List.mem_append_right _ hn
    rw [Disk.nameWithin_below habsolute hfile h, hbelow.ofText_render, hfile]
    exact ⟨rfl, rfl⟩
  · rintro s files rfl file hfile path symbols x n t hparsed hx ht
    obtain ⟨u, hu, hkey, file', hfile', symbols', y, hparsed', hy, hoffers⟩ :=
      exists_tool_of_offers hfile hparsed hx ht
    have hfiles := hsame (Scanner.eq_of_parsed hparsed).1 (Scanner.eq_of_parsed hparsed').1
    obtain ⟨content, hread⟩ := Scanner.exists_read_of_parsed hparsed
    obtain ⟨content', hread'⟩ := Scanner.exists_read_of_parsed hparsed'
    obtain rfl := hfiles.content content content' hread hread'
    exact ⟨u, hu, hkey, file', hfile', symbols', y, hparsed', hy, hoffers, hfiles, content, hread, hread'⟩

/-- A project at `/p` with one file, and a link that leads to the project from outside. -/
def linkedDisk : Disk where
  root := .directory [("p", .directory [("a.ts", .file .empty 0)]), ("ln", .link "p")]

/-- By way of the link and from the root, the file is one. -/
theorem names_keep_files_linked :
    let root : Path := ⟨['/'], ["p"]⟩
    linkedDisk.resolved (.ofText "/p") = .ok root ∧
    linkedDisk.nameWithin root (.ofText "/ln/../ln/a.ts") = .ok "a.ts" ∧
    linkedDisk.nameWithin root (.ofText "./a.ts") = .ok "a.ts" ∧
    linkedDisk.SameFile (root.join (.ofText "/ln/../ln/a.ts")) (root.join (.ofText "./a.ts")) := by
  intro root
  have hresolved : linkedDisk.resolved (.ofText "/p") = .ok root := by cbv
  have hlinked : linkedDisk.nameWithin root (.ofText "/ln/../ln/a.ts") = .ok "a.ts" := by cbv
  have hrelative : linkedDisk.nameWithin root (.ofText "./a.ts") = .ok "a.ts" := by cbv
  obtain ⟨-, -, hsame, -⟩ := names_keep_files hresolved
  exact ⟨hresolved, hlinked, hrelative, hsame _ _ _ hlinked hrelative⟩

/-- A project at `/p` whose only file is a link to itself. -/
def circleDisk : Disk where
  root := .directory [("p", .directory [("loop.ts", .link "loop.ts")])]

/-- The path of a link to itself begins with the root, and yet it has no name. -/
theorem circle_unnamed :
    let root : Path := ⟨['/'], ["p"]⟩
    circleDisk.resolved root = .ok root ∧
    Path.ofText "/p/loop.ts" = ⟨root.root, root.parts ++ ["loop.ts".toList]⟩ ∧
    circleDisk.nameWithin root (.ofText "/p/loop.ts") = .error (.circle (.ofText "/p/loop.ts")) := by
  intro root
  have hresolved : circleDisk.resolved root = .ok root := by cbv
  have hunnamed : circleDisk.nameWithin root (.ofText "/p/loop.ts") = .error (.circle (.ofText "/p/loop.ts")) := by cbv
  exact ⟨hresolved, by decide, hunnamed⟩

end CodeManifest.Tool
