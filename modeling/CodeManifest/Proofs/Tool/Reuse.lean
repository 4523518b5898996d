import CodeManifest.Proofs.Tool.Offer

namespace CodeManifest.Tool

open Files Source

/-- What is asked of a scanner: a scan of files, or the tools of one file apart from those with the keys `seen`. -/
inductive Call where
  | scan (files : List Text)
  | scanFile (seen : List (Text × Text)) (file : Text)

namespace Scanner

/-- What comes of a call. -/
def call (d : Disk) (s : Scanner) : Call → FileScan
  | .scan files =>
    let p := scan d s files
    { scanner := p.scanner, records := p.records, outcome := .ok p.tools }
  | .scanFile seen file => s.scanFile d seen file

/-- What comes of calls one after the other, each on the disk as it is by then. -/
def calls (s : Scanner) : List (Disk × Call) → List FileScan
  | [] => []
  | (d, c) :: cs => s.call d c :: (s.call d c).scanner.calls cs

/-- The scanner after calls. -/
def after (s : Scanner) : List (Disk × Call) → Scanner
  | [] => s
  | (d, c) :: cs => (s.call d c).scanner.after cs

/-- A scanner of the same project that has done nothing yet. -/
def anew (s : Scanner) : Scanner := { root := s.root, builder := s.builder }

/-- Two scanners of one project, of which each may have done what it likes. -/
structure Twins (s s' : Scanner) : Prop where
  root : s.root = s'.root
  builder : s.builder = s'.builder

theorem Twins.trans {s₁ s₂ s₃ : Scanner} (h : Twins s₁ s₂) (h' : Twins s₂ s₃) : Twins s₁ s₃ :=
  ⟨h.root.trans h'.root, h.builder.trans h'.builder⟩

theorem Twins.symm {s s' : Scanner} (h : Twins s s') : Twins s' s := ⟨h.root.symm, h.builder.symm⟩

theorem twins_anew (s : Scanner) : Twins s s.anew := ⟨rfl, rfl⟩

theorem twins_scanFile (d : Disk) (s : Scanner) (seen : List (Text × Text)) (file : Text) :
    Twins (s.scanFile d seen file).scanner s := by
  obtain ⟨hroot, hbuilder⟩ := s.scanFile_keeps d seen file
  exact ⟨hroot, hbuilder⟩

end Scanner

/-- The grammars that reports say are loaded. -/
def loads (rs : List Log.Record) : List Text := rs.filterMap Parsers.load?

/-- The other reports. -/
def others (rs : List Log.Record) : List Log.Record := rs.filter fun r => (Parsers.load? r).isNone

theorem loads_append (rs rs' : List Log.Record) : loads (rs ++ rs') = loads rs ++ loads rs' :=
  List.filterMap_append

theorem others_append (rs rs' : List Log.Record) : others (rs ++ rs') = others rs ++ others rs' :=
  List.filter_append ..

theorem others_parserFor (ps : Parsers) (name : Text) : others (ps.parserFor name).records = [] := by
  refine List.filter_eq_nil_iff.mpr fun r hr => ?_
  rw [Parsers.eq_loading_of_mem hr, Parsers.load?_loading]
  exact Bool.false_ne_true

/-- Whether a grammar is loaded behind the first report makes no difference to the others. -/
theorem others_cons_parserFor (r : Log.Record) (ps : Parsers) (name : Text) (rs : List Log.Record) :
    others (r :: ((ps.parserFor name).records ++ rs)) = others (r :: rs) := by
  rw [← List.singleton_append, others_append, others_append, others_parserFor, List.nil_append, ← others_append,
    List.singleton_append]

namespace Scanner

variable {d : Disk} {s s' : Scanner} {seen : List (Text × Text)} {file : Text}

theorem load?_report (level : Log.Level) (t : Text) : Parsers.load? (report level t) = none := by
  have hsource : (report level t).source ≠ (Parsers.loading []).source := by
    change "tools.scanner".toList ≠ "ast.parser".toList
    decide
  rw [Parsers.load?, if_neg hsource]

theorem loads_report (level : Log.Level) (t : Text) : loads [report level t] = [] := by
  rw [loads, List.filterMap_cons_none (load?_report level t), List.filterMap_nil]

theorem loads_symbolRecords (b : Builder) (path : Text) (seen : List (Text × Text)) (symbols : FileSymbols) :
    loads (symbolRecords b path seen symbols) = [] := by
  refine List.filterMap_eq_nil_iff.mpr fun r hr => ?_
  rcases report_of_mem_symbolRecords hr with ⟨u, rfl⟩ | ⟨level, u, rfl⟩
  · exact load?_report .debug u
  · exact load?_report level _

/-- The names of the grammars that a scanner has loaded. -/
def grammars (s : Scanner) : List Text := s.parsers.entries.keys

theorem outcome_scanFile_of_twins (h : Twins s s') (d : Disk) (seen : List (Text × Text)) (file : Text) :
    (s.scanFile d seen file).outcome = (s'.scanFile d seen file).outcome := by
  simp only [scanFile_outcome, parsed, h.root, h.builder]

theorem others_scanFile_of_twins (h : Twins s s') (d : Disk) (seen : List (Text × Text)) (file : Text) :
    others (s.scanFile d seen file).records = others (s'.scanFile d seen file).records := by
  unfold scanFile
  dsimp only
  rw [h.root]
  cases d.nameWithin s'.root (.ofText file) with
  | error e => rfl
  | ok path =>
    dsimp only
    cases source d (s'.root.join (.ofText file)) with
    | error e => rfl
    | ok lt =>
      dsimp only
      rw [scanText_eq, scanText_eq, h.builder, others_cons_parserFor, others_cons_parserFor]

/-- A file loads what is not there, and says so. -/
theorem grammars_scanFile (d : Disk) (s : Scanner) (seen : List (Text × Text)) (file : Text) :
    (s.scanFile d seen file).scanner.grammars = s.grammars ++ loads (s.scanFile d seen file).records := by
  unfold scanFile
  dsimp only
  cases d.nameWithin s.root (.ofText file) with
  | error e => exact (List.append_nil _).symm
  | ok path =>
    dsimp only
    cases source d (s.root.join (.ofText file)) with
    | error e =>
      dsimp only
      rw [loads_report, List.append_nil]
    | ok lt =>
      dsimp only
      rw [scanText_eq, ← List.singleton_append, loads_append, loads_append, loads_report, loads_symbolRecords,
        List.nil_append, List.append_nil]
      exact s.parsers.keys_parserFor lt.1.name

/-- A file that fails changes nothing, and loads nothing. -/
theorem scanFile_of_error {f : Failure} (h : (s.scanFile d seen file).outcome = .error f) :
    (s.scanFile d seen file).scanner = s ∧ loads (s.scanFile d seen file).records = [] := by
  unfold scanFile at h ⊢
  dsimp only at h ⊢
  cases hnamed : d.nameWithin s.root (.ofText file) with
  | error e => exact ⟨rfl, rfl⟩
  | ok path =>
    rw [hnamed] at h
    dsimp only at h ⊢
    cases hsource : source d (s.root.join (.ofText file)) with
    | error e => exact ⟨rfl, loads_report .debug _⟩
    | ok lt =>
      rw [hsource] at h
      dsimp only at h
      rw [scanText_eq] at h
      cases h

end Scanner

namespace Progress

/-- Two scans that have come to the same, but for the grammars that they loaded. -/
structure Twins (p p' : Progress) : Prop where
  scanner : Scanner.Twins p.scanner p'.scanner
  tools : p.tools = p'.tools
  failed : p.failed = p'.failed
  others : others p.records = others p'.records

theorem Twins.step {p p' : Progress} (h : Twins p p') (d : Disk) (file : Text) : Twins (p.step d file) (p'.step d file) := by
  have houtcome := Scanner.outcome_scanFile_of_twins h.scanner d (p'.tools.map Descriptor.key) file
  have hothers := Scanner.others_scanFile_of_twins h.scanner d (p'.tools.map Descriptor.key) file
  have hscanner : Scanner.Twins (p.step d file).scanner (p'.step d file).scanner := by
    rw [step_scanner, step_scanner]
    exact ((Scanner.twins_scanFile ..).trans h.scanner).trans (Scanner.twins_scanFile ..).symm
  refine ⟨hscanner, ?_, ?_, ?_⟩
  all_goals
    unfold Progress.step
    dsimp only
    rw [h.tools, houtcome]
    split
  · rfl
  · rfl
  · exact congrArg (· + 1) h.failed
  · exact h.failed
  · simp only [others_append, h.others, hothers]
  · simp only [others_append, h.others, hothers]

theorem Twins.foldl {p p' : Progress} (h : Twins p p') (d : Disk) (files : List Text) :
    Twins (files.foldl (Progress.step d) p) (files.foldl (Progress.step d) p') := by
  induction files generalizing p p' with
  | nil => exact h
  | cons file files ih => exact ih (h.step d file)

/-- A scan has loaded what it says, besides what was there when it began. -/
def Loads (before : List Text) (p : Progress) : Prop := p.scanner.grammars = before ++ loads p.records

theorem Loads.step {before : List Text} {p : Progress} (h : Loads before p) (d : Disk) (file : Text) :
    Loads before (p.step d file) := by
  have hfile := p.scanner.grammars_scanFile d (p.tools.map Descriptor.key) file
  rw [h] at hfile
  unfold Loads Progress.step
  dsimp only
  split
  · simp only [loads_append]
    rw [hfile, Scanner.failure, Scanner.loads_report]
    simp
  · simp only [loads_append]
    rw [hfile, List.append_assoc]

theorem Loads.foldl {before : List Text} {p : Progress} (h : Loads before p) (d : Disk) (files : List Text) :
    Loads before (files.foldl (Progress.step d) p) := by
  induction files generalizing p with
  | nil => exact h
  | cons file files ih => exact ih (h.step d file)

/-- A scan goes on with a scanner of the same project. -/
theorem twins_foldl (d : Disk) (p : Progress) (files : List Text) :
    Scanner.Twins (files.foldl (step d) p).scanner p.scanner := by
  induction files generalizing p with
  | nil => exact ⟨rfl, rfl⟩
  | cons file files ih =>
    have hfile := p.scanner.twins_scanFile d (p.tools.map Descriptor.key) file
    rw [← step_scanner] at hfile
    exact (ih (p.step d file)).trans hfile

end Progress

namespace Scanner

theorem twins_call (d : Disk) (s : Scanner) (c : Call) : Twins (s.call d c).scanner s := by
  cases c with
  | scan files => exact Progress.twins_foldl d { scanner := s } files
  | scanFile seen file => exact s.twins_scanFile d seen file

/-- What comes of a call does not depend on what the scanner has done before. -/
theorem call_of_twins {s s' : Scanner} (h : Twins s s') (d : Disk) (c : Call) :
    (s.call d c).outcome = (s'.call d c).outcome ∧ others (s.call d c).records = others (s'.call d c).records := by
  cases c with
  | scan files =>
    have hstart : Progress.Twins { scanner := s } { scanner := s' } := ⟨h, rfl, rfl, rfl⟩
    have hend := hstart.foldl d files
    refine ⟨congrArg Except.ok hend.tools, ?_⟩
    unfold call scan Progress.finish
    dsimp only
    rw [others_append, others_append, hend.others, hend.tools, hend.failed]
  | scanFile seen file => exact ⟨outcome_scanFile_of_twins h d seen file, others_scanFile_of_twins h d seen file⟩

/-- A call loads what is not there, and says so. -/
theorem grammars_call (d : Disk) (s : Scanner) (c : Call) :
    (s.call d c).scanner.grammars = s.grammars ++ loads (s.call d c).records := by
  cases c with
  | scan files =>
    have hstart : Progress.Loads s.grammars { scanner := s } := (List.append_nil _).symm
    have hend := hstart.foldl d files
    unfold call scan Progress.finish
    dsimp only
    rw [loads_append, loads_report, List.append_nil]
    exact hend
  | scanFile seen file => exact s.grammars_scanFile d seen file

theorem calls_of_twins {s s' : Scanner} (h : Twins s s') (cs : List (Disk × Call)) :
    List.Forall₂ (fun c r => r.outcome = (s'.call c.1 c.2).outcome ∧
      others r.records = others (s'.call c.1 c.2).records) cs (s.calls cs) := by
  induction cs generalizing s with
  | nil => exact .nil
  | cons c cs ih => exact .cons (call_of_twins h c.1 c.2) (ih ((s.twins_call c.1 c.2).trans h))

theorem grammars_after (s : Scanner) (cs : List (Disk × Call)) :
    (s.after cs).grammars = s.grammars ++ loads ((s.calls cs).flatMap FileScan.records) := by
  induction cs generalizing s with
  | nil => exact (List.append_nil _).symm
  | cons c cs ih => rw [after, ih, grammars_call, calls, List.flatMap_cons, loads_append, List.append_assoc]

/-- Whatever a scanner is asked for, and whether that fails or not, what comes of it is what comes of the same call
of a scanner that has done nothing yet. The scanner keeps under a name the parser for the grammar of that name, and
all that it says is loaded, no grammar twice; what fails leaves it as it was. -/
theorem calls_anew (s : Scanner) (cs : List (Disk × Call)) :
    List.Forall₂ (fun c r => r.outcome = (s.anew.call c.1 c.2).outcome ∧
      others r.records = others (s.anew.call c.1 c.2).records) cs (s.calls cs) ∧
    (∀ r ∈ s.calls cs, ∀ e ∈ r.scanner.parsers.entries, Language.ofName? e.1 = some e.2.grammar) ∧
    (s.after cs).grammars = s.grammars ++ loads ((s.calls cs).flatMap FileScan.records) ∧
    (s.after cs).grammars.Nodup ∧
    (∀ (ps : Parsers) name f, (ps.parserFor name).outcome = .error f →
      (ps.parserFor name).parsers = ps ∧ (ps.parserFor name).records = []) ∧
    ∀ (s : Scanner) d seen file f, (s.scanFile d seen file).outcome = .error f →
      (s.scanFile d seen file).scanner = s ∧ loads (s.scanFile d seen file).records = [] :=
  ⟨calls_of_twins s.twins_anew cs, fun _ _ _ he => Parsers.grammar_of_mem he, s.grammars_after cs,
    (s.after cs).parsers.distinct, fun _ _ _ h => Parsers.parserFor_of_error h, fun _ _ _ _ _ h => scanFile_of_error h⟩

end Scanner

end CodeManifest.Tool
