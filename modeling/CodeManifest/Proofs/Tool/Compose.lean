import CodeManifest.Proofs.Tool.Offer

namespace CodeManifest.Tool

open Files Source

theorem scan_tools_append (d : Disk) (s : Scanner) (xs ys : List Text) :
    (scan d s (xs ++ ys)).tools =
      (scan d s xs).tools ++
        (scan d s ys).tools.filter fun t => t.key ∉ (scan d s xs).tools.map Descriptor.key := by
  simp only [scan_tools, offers_append]
  rw [fresh_append, List.append_nil]
  exact congrArg (_ ++ ·) (fresh_eq_filter Descriptor.key (fun _ => decide_eq_true_iff) _)

theorem scan_tools_twice (d : Disk) (s : Scanner) (xs : List Text) :
    (scan d s (xs ++ xs)).tools = (scan d s xs).tools := by
  have hnone : (scan d s xs).tools.filter
      (fun t => t.key ∉ (scan d s xs).tools.map Descriptor.key) = [] := by
    rw [List.filter_eq_nil_iff]
    intro t ht
    simpa using List.mem_map_of_mem ht
  rw [scan_tools_append, hnone, List.append_nil]

theorem parsed_of_outcome_error {d : Disk} {s : Scanner} {seen : List (Text × Text)} {file : Text}
    {e : Failure} (h : (s.scanFile d seen file).outcome = .error e) :
    s.parsed d file = .error e := by
  rw [s.scanFile_outcome d seen file] at h
  cases hp : s.parsed d file with
  | error e' =>
    rw [hp] at h
    injection h with he
    rw [he]
  | ok f =>
    rw [hp] at h
    cases h

theorem scan_tools_skip {d : Disk} {s : Scanner} {file : Text} {e : Failure}
    (h : s.parsed d file = .error e) (xs ys : List Text) :
    (scan d s (xs ++ file :: ys)).tools = (scan d s (xs ++ ys)).tools := by
  have hcons : offers d s (file :: ys) = offers d s [file] ++ offers d s ys :=
    offers_append d s [file] ys
  rw [scan_tools, scan_tools, offers_append, offers_append, hcons, offers_singleton_error h]
  rfl

/-- Does a report say that a file failed? -/
def isFileFailure (r : Log.Record) : Bool :=
  r.level = .warning && Scanner.failureOpening.isPrefixOf r.text

/-- The report of a file, if it fails. -/
def Scanner.failure? (d : Disk) (s : Scanner) (file : Text) : Option Log.Record :=
  match s.parsed d file with
  | .error e => some (Scanner.failure file e)
  | .ok _ => none

theorem isFileFailure_of_debug {r : Log.Record} (h : r.level = .debug) : isFileFailure r = false := by
  simp [isFileFailure, h]

theorem isFileFailure_failure (file : Text) (e : Failure) :
    isFileFailure (Scanner.failure file e) = true := by
  have hprefix : Scanner.failureOpening <+: Scanner.failureOpening ++ file ++ ':' :: ' ' :: e.text := by
    rw [List.append_assoc]
    exact List.prefix_append _ _
  have htext := List.isPrefixOf_iff_prefix.mpr hprefix
  simp only [isFileFailure, Scanner.failure, Scanner.report_level, Scanner.report_text, htext,
    decide_true, Bool.and_true]

/-- The report of a symbol begins with blanks, whatever its level. -/
theorem isFileFailure_note (level : Log.Level) (t : Text) :
    isFileFailure (Scanner.report level ("  - ".toList ++ t)) = false := by
  have hopening : Scanner.failureOpening = 'F' :: "ailed to process ".toList := rfl
  have htext : Scanner.failureOpening.isPrefixOf ("  - ".toList ++ t) = false := by
    rw [hopening]
    rfl
  simp only [isFileFailure, Scanner.report_text, htext, Bool.and_false]

/-- What a scan reports on the way through the text of a file, no matter which of its symbols cannot be
made tools, never says that the file failed. -/
theorem isFileFailure_scanText (s : Scanner) (seen : List (Text × Text)) (path : Text)
    (l : Language) (t : Text) :
    ∀ r ∈ (s.scanText seen path l t).records, isFileFailure r = false := by
  intro r hr
  rw [Scanner.scanText_eq] at hr
  rcases List.mem_append.mp hr with hr | hr
  · rw [Parsers.eq_loading_of_mem hr]
    exact isFileFailure_of_debug rfl
  · rcases Scanner.report_of_mem_symbolRecords hr with ⟨u, rfl⟩ | ⟨level, u, rfl⟩
    · exact isFileFailure_of_debug rfl
    · exact isFileFailure_note level u

theorem isFileFailure_scanFile (d : Disk) (s : Scanner) (seen : List (Text × Text)) (file : Text) :
    ∀ r ∈ (s.scanFile d seen file).records, isFileFailure r = false := by
  intro r hr
  unfold Scanner.scanFile at hr
  dsimp only at hr
  cases hn : d.nameWithin s.root (.ofText file) with
  | error e =>
    rw [hn] at hr
    cases hr
  | ok path =>
    rw [hn] at hr
    dsimp only at hr
    cases hs : Scanner.source d (s.root.join (.ofText file)) with
    | error e =>
      rw [hs] at hr
      rw [List.mem_singleton.mp hr]
      exact isFileFailure_of_debug rfl
    | ok lt =>
      rw [hs] at hr
      rcases List.mem_cons.mp hr with rfl | hr
      · exact isFileFailure_of_debug rfl
      · exact isFileFailure_scanText s seen path lt.1 lt.2 r hr

namespace Progress

theorem step_failures (d : Disk) (p : Progress) (file : Text) :
    (p.step d file).records.filter isFileFailure =
      p.records.filter isFileFailure ++ (p.scanner.failure? d file).toList := by
  have hquiet : (p.scanner.scanFile d (p.tools.map Descriptor.key) file).records.filter
      isFileFailure = [] := by
    rw [List.filter_eq_nil_iff]
    intro r hr
    simp [isFileFailure_scanFile d p.scanner _ file r hr]
  unfold Scanner.failure?
  cases h : p.scanner.parsed d file with
  | error e =>
    rw [step_of_error h]
    simp [List.filter_append, hquiet, isFileFailure_failure]
  | ok f =>
    rw [step_of_ok h]
    simp [List.filter_append, hquiet]

theorem run_failures (d : Disk) (p : Progress) (files : List Text) :
    (files.foldl (step d) p).records.filter isFileFailure =
      p.records.filter isFileFailure ++ files.filterMap (p.scanner.failure? d) := by
  induction files generalizing p with
  | nil => simp
  | cons file files ih =>
    obtain ⟨hr, -⟩ := p.scanner.scanFile_keeps d (p.tools.map Descriptor.key) file
    rw [← p.step_scanner d file] at hr
    have hsame : (p.step d file).scanner.failure? d = p.scanner.failure? d := by
      funext f
      simp only [Scanner.failure?, Scanner.parsed, hr]
    rw [List.foldl_cons, ih, hsame, step_failures, List.append_assoc]
    cases h : p.scanner.failure? d file with
    | none => rw [List.filterMap_cons_none h]; rfl
    | some r => rw [List.filterMap_cons_some h]; rfl

end Progress

/-- Every file that fails is reported once, in order, and no other is. -/
theorem scan_failures (d : Disk) (s : Scanner) (files : List Text) :
    (scan d s files).records.filter isFileFailure = files.filterMap (s.failure? d) := by
  have h := Progress.run_failures d { scanner := s } files
  have hend (t : Text) : [Scanner.report .info t].filter isFileFailure = [] := by
    simp [isFileFailure]
  unfold scan Progress.finish
  rw [List.filter_append, h, hend, List.append_nil]
  rfl

/-- The name of a file in the project, if it has one. -/
def Scanner.path? (d : Disk) (s : Scanner) (file : Text) : Option Text :=
  (d.nameWithin s.root (.ofText file)).toOption

/-- The tools of a file by itself. -/
def Scanner.toolsOf (d : Disk) (s : Scanner) (file : Text) : List Descriptor :=
  match (s.scanFile d [] file).outcome with
  | .ok tools => tools
  | .error _ => []

theorem toolsOf_eq_fresh (d : Disk) (s : Scanner) (file : Text) :
    s.toolsOf d file = fresh Descriptor.key [] (offers d s [file]) := by
  unfold Scanner.toolsOf
  rw [s.scanFile_outcome d [] file]
  cases h : s.parsed d file with
  | error e =>
    rw [offers_singleton_error h]
    rfl
  | ok f =>
    rw [offers_singleton_ok h, ← select_eq_fresh]
    rfl

theorem path?_of_mem_offers {d : Disk} {s : Scanner} {files : List Text} {t : Descriptor}
    (h : t ∈ offers d s files) : t.key.1 ∈ files.filterMap (s.path? d) := by
  have hk : (t.key.1, t.key.2) ∈ (offers d s files).map Descriptor.key := List.mem_map_of_mem h
  obtain ⟨x, -, hx, -⟩ := mem_keys_offers.mp hk
  obtain ⟨file, hf, symbols, hp, -⟩ := mem_candidates.mp hx
  obtain ⟨hn, -⟩ := Scanner.eq_of_parsed hp
  refine List.mem_filterMap.mpr ⟨file, hf, ?_⟩
  unfold Scanner.path?
  rw [hn]
  rfl

/-- Files with names of their own have no tools in common. -/
theorem scan_tools_of_nodup {d : Disk} {s : Scanner} {files : List Text}
    (h : (files.filterMap (s.path? d)).Nodup) :
    (scan d s files).tools = files.flatMap (s.toolsOf d) := by
  rw [scan_tools]
  induction files with
  | nil => rfl
  | cons file files ih =>
    have hfiles : (files.filterMap (s.path? d)).Nodup := by
      cases hf : s.path? d file with
      | none => rwa [List.filterMap_cons_none hf] at h
      | some path =>
        rw [List.filterMap_cons_some hf] at h
        exact (List.nodup_cons.mp h).2
    have hcons : offers d s (file :: files) = offers d s [file] ++ offers d s files :=
      offers_append d s [file] files
    rw [hcons, fresh_append, List.append_nil, ← toolsOf_eq_fresh, List.flatMap_cons, ← ih hfiles]
    apply congrArg (s.toolsOf d file ++ ·)
    rw [fresh_eq_filter Descriptor.key (fun _ => decide_eq_true_iff), List.filter_eq_self]
    intro t ht
    rw [decide_eq_true_iff]
    intro hk
    obtain ⟨u, hu, hkey⟩ := List.mem_map.mp hk
    rw [toolsOf_eq_fresh] at hu
    have hu' := path?_of_mem_offers (mem_of_mem_fresh hu)
    have ht' := path?_of_mem_offers (mem_of_mem_fresh ht)
    rw [hkey] at hu'
    cases hf : s.path? d file with
    | none => simp [hf] at hu'
    | some path =>
      rw [List.filterMap_cons_some hf] at h
      have hpath : t.key.1 = path := by simpa [hf] using hu'
      exact (List.nodup_cons.mp h).1 (hpath ▸ ht')

/-- A scan of two lists finds what the first yields and behind it what the second adds. A file that fails
adds nothing, wherever it stands, and is reported once; a list that is scanned again adds nothing; and
files with names of their own yield the same each, in whatever order they are listed. -/
theorem scan_composes (d : Disk) (s : Scanner) :
    let found := fun files => (scan d s files).tools
    let failures := fun files => (scan d s files).records.filter isFileFailure
    (∀ xs ys, found (xs ++ ys) =
      found xs ++ (found ys).filter fun t => t.key ∉ (found xs).map Descriptor.key) ∧
    (∀ xs ys file seen e, (s.scanFile d seen file).outcome = .error e →
      found (xs ++ file :: ys) = found (xs ++ ys) ∧
      failures (xs ++ file :: ys) = failures xs ++ Scanner.failure file e :: failures ys ∧
      failures (xs ++ ys) = failures xs ++ failures ys) ∧
    (∀ xs, found (xs ++ xs) = found xs) ∧
    ∀ xs ys, (xs.filterMap (s.path? d)).Nodup → ys.Perm xs →
      found ys = ys.flatMap (s.toolsOf d) := by
  intro found failures
  refine ⟨scan_tools_append d s, ?_, scan_tools_twice d s, ?_⟩
  · intro xs ys file seen e h
    have hp := parsed_of_outcome_error h
    have hf : s.failure? d file = some (Scanner.failure file e) := by
      simp only [Scanner.failure?, hp]
    refine ⟨scan_tools_skip hp xs ys, ?_, ?_⟩
    · simp only [failures, scan_failures]
      rw [List.filterMap_append, List.filterMap_cons_some hf]
    · simp only [failures, scan_failures]
      rw [List.filterMap_append]
  · intro xs ys hxs hperm
    exact scan_tools_of_nodup ((hperm.filterMap (s.path? d)).nodup_iff.mpr hxs)

end CodeManifest.Tool
