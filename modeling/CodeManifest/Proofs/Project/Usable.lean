import CodeManifest.Proofs.Files.Within
import CodeManifest.Proofs.Project.Alike
import CodeManifest.Proofs.Schema.Fallback

namespace CodeManifest

open Files Source

namespace Project

variable {d : Disk} {root p : Path}

/-- A file that is found has a name that can stand in a directory, as have the directories on the way to it, and
it ends in one of the extensions, in any letter case. -/
theorem exists_of_mem_findSources {extensions further : List Text} {f : Found} (hproper : d.IsProper)
    (h : findSources d root extensions further = .ok f) (hp : p ∈ f.files) :
    ∃ place above name, d.resolved root = .ok ⟨['/'], place⟩ ∧ p = { parts := above ++ [name] } ∧
      (∀ n ∈ place ++ (above ++ [name]), IsName n) ∧
      Text.lower (Path.suffixOf name) ∈ extensions.map Text.lower := by
  obtain ⟨vs, hwalk, h⟩ := exists_of_bind_eq_ok h
  cases h
  obtain ⟨ns, hns, rfl⟩ := Found.mem_files_ofVisits.mp hp
  obtain ⟨place, es, ignored, above, name, hplace, htree, rfl, hselects⟩ := exists_of_mem_walk hproper.tree hwalk hns
  obtain ⟨e, hat, -⟩ := hselects.reached
  refine ⟨place.parts, above, name, htree.root_eq ▸ hplace, rfl, ?_, hselects.extension⟩
  refine hproper.names _ e ?_
  exact (htree.at?_append _).trans hat

/-- Every extension that is supported has a grammar. -/
theorem isSome_lookup_of_supported {x : Text} (h : x ∈ Config.supportedExtensions) :
    (Language.bySuffix.lookup (Text.lower x)).isSome = true := by
  have hall : ∀ x ∈ Config.supportedExtensions, (Language.bySuffix.lookup (Text.lower x)).isSome = true := by
    decide +kernel
  exact hall x h

theorem ofPath?_append {above : List Text} {name r : Text} :
    Language.ofPath? ⟨r, above ++ [name]⟩ = Language.bySuffix.lookup (Text.lower (Path.suffixOf name)) := by
  simp [Language.ofPath?, Path.suffix, Path.name]

end Project

namespace Tool.Scanner

variable {d : Disk}

/-- What fails in a file of a language is its reading. -/
theorem exists_of_source_eq_error {p : Path} {l : Language} {f : Failure} (hlanguage : Language.ofPath? p = some l)
    (h : source d p = .error f) :
    ∃ e : Files.Error, f = .fault (.inFile .source ("Failed to read file: ".toList ++ e.message) p.render) := by
  unfold source at h
  rw [hlanguage] at h
  dsimp only at h
  split at h <;> cases h
  exact ⟨_, rfl⟩

/-- The type of a file of a language is supported. -/
theorem scanFile_ne_unsupported {file : Text} {l : Language} (habsolute : (Path.ofText file).isAbsolute = true)
    (hlanguage : Language.ofPath? (Path.ofText file) = some l) (s : Scanner) (seen : List (Text × Text)) (q : Text) :
    (s.scanFile d seen file).outcome ≠ .error (.fault (.inFile .source "Unsupported file type" q)) := by
  have hjoin : s.root.join (.ofText file) = .ofText file := Path.join_of_isAbsolute habsolute
  intro houtcome
  rw [scanFile_outcome] at houtcome
  cases hparsed : s.parsed d file with
  | ok f =>
    rw [hparsed] at houtcome
    cases houtcome
  | error f =>
    rw [hparsed] at houtcome
    cases houtcome
    rcases error_of_bind_eq_error hparsed with hnamed | ⟨path, -, hrest⟩
    · obtain ⟨r, hr⟩ := Disk.exists_circle_of_nameWithin hnamed
      cases hr
    · rcases error_of_bind_eq_error hrest with hsource | ⟨x, -, hend⟩
      · rw [hjoin] at hsource
        obtain ⟨e, he⟩ := exists_of_source_eq_error hlanguage hsource
        cases he
      · cases hend

end Tool.Scanner

namespace Project

/-- Everything that a configuration asks for can be read. -/
structure Config.Usable (data : Value) (c : Config) : Prop where
  dialects : Schema.dialectsOf c.dialectNames = .ok c.dialects
  named : c.dialects.map Sql.Dialect.name = c.dialectNames
  inOrder : ∀ v, data.get? "dialects" = some v →
    ∃ ts, Says v ts ∧ c.dialects.map Sql.Dialect.name = ts.map Text.lower
  standard : data.get? "dialects" = none → c.dialects = Sql.Dialect.all
  dotted : ∀ x ∈ c.sourceExtensions, x.head? = some '.'
  /-- a file that is found has a grammar, and no scan of it says that it has none -/
  sources : ∀ d root further f, d.IsProper → findSources d root c.sourceExtensions further = .ok f → ∀ p ∈ f.files,
    (Language.ofPath? p).isSome = true ∧
      (d.resolved root = .ok root → ∀ (d' : Disk) (s : Tool.Scanner) seen q,
        (s.scanFile d' seen (root.join p).render).outcome ≠
          .error (.fault (.inFile .source "Unsupported file type" q)))

/-- Each name that a configuration may ask for is the name of a dialect that can be read. -/
theorem Config.exists_dialect {n : Text} (h : n ∈ supportedDialects) : ∃ d, Sql.Dialect.ofName? n = some d := by
  have hall : ∀ n ∈ supportedDialects, (Sql.Dialect.ofName? n).isSome = true := by decide
  exact Option.isSome_iff_exists.mp (hall n h)

theorem Config.map_name_ofName? {names : List Text} (h : ∀ n ∈ names, n ∈ supportedDialects) :
    (names.filterMap Sql.Dialect.ofName?).map Sql.Dialect.name = names := by
  induction names with
  | nil => rfl
  | cons n names ih =>
    obtain ⟨hn, hnames⟩ := List.forall_mem_cons.mp h
    obtain ⟨d, hd⟩ := exists_dialect hn
    rw [List.filterMap_cons_some hd, List.map_cons, Sql.Dialect.name_of_ofName? hd, ih hnames]

/-- The dialects are those that are asked for, in their order, or all that are supported. -/
theorem Config.dialectNames_of_ofValue {data : Value} {c : Config} (h : ofValue data = .ok c) :
    (∃ v ts, data.get? "dialects" = some v ∧ Says v ts ∧ ts ≠ [] ∧ (∀ t ∈ ts, Text.lower t ∈ supportedDialects) ∧
      c.dialectNames = ts.map Text.lower) ∨
    data.get? "dialects" = none ∧ c.dialectNames = supportedDialects := by
  obtain ⟨-, -, -, -, -, hdialects⟩ := withOutput_eq_ok.mp (exists_withOutput_of_ofValue h)
  unfold setting at hdialects
  split at hdialects
  · rename_i v hget
    obtain ⟨ts, hts, hne, hknown, hnames⟩ := readDialects_eq_ok.mp hdialects
    exact Or.inl ⟨v, ts, hget, hts, hne, hknown, hnames⟩
  · rename_i hget
    exact Or.inr ⟨hget, (Except.ok.inj hdialects).symm⟩

theorem Config.mem_supportedDialects {data : Value} {c : Config} (h : ofValue data = .ok c) {n : Text}
    (hn : n ∈ c.dialectNames) : n ∈ supportedDialects := by
  rcases dialectNames_of_ofValue h with ⟨v, ts, -, -, -, hknown, hnames⟩ | ⟨-, hall⟩
  · rw [hnames] at hn
    obtain ⟨t, ht, rfl⟩ := List.mem_map.mp hn
    exact hknown t ht
  · exact hall ▸ hn

theorem Config.dialectNames_ne_nil {data : Value} {c : Config} (h : ofValue data = .ok c) : c.dialectNames ≠ [] := by
  rcases dialectNames_of_ofValue h with ⟨v, ts, -, -, hne, -, hnames⟩ | ⟨-, hall⟩
  · rw [hnames]
    simpa using hne
  · rw [hall]
    exact List.cons_ne_nil _ _

theorem Config.usable_of_ofValue {data : Value} {c : Config} (h : ofValue data = .ok c) : Usable data c := by
  have hsupported := sourceExtensions_of_ofValue h
  have hnamed : c.dialects.map Sql.Dialect.name = c.dialectNames :=
    map_name_ofName? fun n hn => mem_supportedDialects h hn
  have hne : c.dialects ≠ [] := by
    intro hnil
    rw [hnil] at hnamed
    exact dialectNames_ne_nil h hnamed.symm
  refine ⟨?_, hnamed, ?_, ?_, ?_, ?_⟩
  · rw [← hnamed]
    exact Schema.dialectsOf_map_name hne
  · intro v hget
    rcases dialectNames_of_ofValue h with ⟨w, ts, hw, hts, -, -, hnames⟩ | ⟨hnone, -⟩
    · cases hget.symm.trans hw
      exact ⟨ts, hts, hnamed.trans hnames⟩
    · cases hget.symm.trans hnone
  · intro hget
    rcases dialectNames_of_ofValue h with ⟨w, ts, hw, -⟩ | ⟨-, hall⟩
    · cases hget.symm.trans hw
    · rw [dialects, hall]
      decide
  · have hall : ∀ x ∈ supportedExtensions, x.head? = some '.' := by decide
    exact fun x hx => hall x (hsupported x hx)
  · intro d root further f hproper hf p hp
    obtain ⟨place, above, name, hroot, rfl, hnames, hextension⟩ := exists_of_mem_findSources hproper hf hp
    obtain ⟨x, hx, hlower⟩ := List.mem_map.mp hextension
    have hgrammar (r : Text) (ns : List Text) : (Language.ofPath? ⟨r, ns ++ [name]⟩).isSome = true := by
      rw [ofPath?_append, ← hlower]
      exact isSome_lookup_of_supported (hsupported x hx)
    refine ⟨hgrammar [] above, fun hself d' s seen q => ?_⟩
    cases hroot.symm.trans hself
    -- The text of the path is read back, so that the scan sees the name that was found.
    have hread : Path.ofText (Path.join ⟨['/'], place⟩ { parts := above ++ [name] }).render =
        ⟨['/'], place ++ (above ++ [name])⟩ := Path.ofText_render hnames
    obtain ⟨l, hl⟩ := Option.isSome_iff_exists.mp (hgrammar ['/'] (place ++ above))
    rw [List.append_assoc] at hl
    exact Tool.Scanner.scanFile_ne_unsupported (by rw [hread]; rfl) (by rw [hread]; exact hl) s seen q

/-- Settings are refused, with a fault of the configuration, where they say something wrong and for no other
reason, but for an output that cannot be written. Of what is accepted everything can be used. -/
theorem ofValue_usable (data : Value) :
    (Config.ofValue data = .error (.defect .outOfRange) ↔ Config.Overlong data) ∧
    ((∃ g, g.kind = .configuration ∧ Config.ofValue data = .error (.fault g)) ↔
      ¬Config.Overlong data ∧ Config.Refused data) ∧
    ((∃ c, Config.ofValue data = .ok c) ↔ ¬Config.Overlong data ∧ ¬Config.Refused data) ∧
    ∀ c, Config.ofValue data = .ok c → Config.Usable data c := by
  refine ⟨?_, ?_, ?_, fun c hc => Config.usable_of_ofValue hc⟩
  all_goals
    rcases Config.ofValue_cases data with ⟨hlong, h⟩ | ⟨hlong, hrefused, g, hg, h⟩ | ⟨hlong, hrefused, c, h⟩
    all_goals simp [*]

/-- A number of 4302 digits, which a setting can give by 3572 digits of base sixteen. -/
def longOutput : Value := .map [(.text "output", .int (16 ^ 3572 - 1))]

/-- A setting that is nothing wrong makes no configuration, and no fault of one. -/
theorem longOutput_not_reported :
    ¬Config.Refused longOutput ∧ Config.ofValue longOutput = .error (.defect .outOfRange) ∧
      (Failure.defect .outOfRange).isReported = false := by
  have hlong : Value.IsLong (16 ^ 3572 - 1) := by
    unfold Value.IsLong
    decide +kernel
  refine ⟨?_, Config.ofValue_of_overlong ⟨_, _, rfl, .self, hlong⟩, rfl⟩
  rintro (⟨h, -⟩ | ⟨h, -⟩ | ⟨h, -⟩ | ⟨h, -⟩ | ⟨h, -⟩ | ⟨h, -⟩) <;> cases h

end Project

end CodeManifest
