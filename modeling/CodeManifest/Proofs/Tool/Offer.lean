import CodeManifest.Proofs.Except
import CodeManifest.Proofs.Fresh
import CodeManifest.Proofs.Source.Order
import CodeManifest.Proofs.Source.Parser
import CodeManifest.Tool.Scan

namespace CodeManifest.Tool

open Files Source

/-- The symbol of the file `path` offers the tool `t` under the name `n`, whatever else there is. -/
structure Offers (b : Builder) (path : Text) (x : Symbol) (n : Text) (t : Descriptor) : Prop where
  name_eq : x.name = some n
  ne_nil : n ≠ []
  eligible : Rejection.of? n path = none
  exported : x.isExported = true
  built : b.build n x path = .ok t

theorem Offers.key_eq {b : Builder} {path n : Text} {x : Symbol} {t : Descriptor}
    (h : Offers b path x n t) : t.key = (path, n) := b.key_of_build h.built

namespace Verdict

theorem of_anonymous {x : Symbol} (h : x.name.getD [] = []) (b : Builder) (path : Text)
    (taken : List (Text × Text)) : of b path taken x = anonymous := by
  unfold of
  rw [h]

theorem of_named {x : Symbol} {n : Text} (h : x.name = some n) (hn : n ≠ []) (b : Builder)
    (path : Text) (taken : List (Text × Text)) :
    of b path taken x =
      match Rejection.of? n path with
      | some r => rejected r
      | none =>
        if !x.isExported then hidden
        else if taken.contains (path, n) then duplicate
        else match b.build n x path with
          | .ok t => tool t
          | .error reason => broken reason := by
  unfold of
  rw [h]
  cases n with
  | nil => exact absurd rfl hn
  | cons c n => rfl

end Verdict

/-- The tool that a symbol of the file `path` offers, if it does. -/
def offer? (b : Builder) (path : Text) (x : Symbol) : Option Descriptor :=
  (Verdict.of b path [] x).tool?

/-- The name of a symbol that has one is not empty. -/
private theorem named_or_anonymous (x : Symbol) :
    x.name.getD [] = [] ∨ ∃ n, x.name = some n ∧ n ≠ [] := by
  cases h : x.name with
  | none => exact Or.inl rfl
  | some n =>
    by_cases hn : n = []
    · exact Or.inl hn
    · exact Or.inr ⟨n, rfl, hn⟩

theorem offer?_eq_some_iff {b : Builder} {path : Text} {x : Symbol} {t : Descriptor} :
    offer? b path x = some t ↔ ∃ n, Offers b path x n t := by
  constructor
  · intro h
    unfold offer? at h
    rcases named_or_anonymous x with hx | ⟨n, hx, hn⟩
    · rw [Verdict.of_anonymous hx] at h
      cases h
    · rw [Verdict.of_named hx hn] at h
      cases hr : Rejection.of? n path with
      | some r => simp [hr, Verdict.tool?] at h
      | none =>
        cases he : x.isExported with
        | false => simp [hr, he, Verdict.tool?] at h
        | true =>
          cases hb : b.build n x path with
          | error e => simp [hr, he, hb, Verdict.tool?] at h
          | ok u =>
            obtain rfl : u = t := by simpa [hr, he, hb, Verdict.tool?] using h
            exact ⟨n, hx, hn, hr, he, hb⟩
  · rintro ⟨n, hx, hn, hr, he, hb⟩
    unfold offer?
    rw [Verdict.of_named hx hn]
    simp [hr, he, hb, Verdict.tool?]

/-- A tool that is there keeps a symbol from becoming another with its key, and does nothing else. -/
theorem tool?_of (b : Builder) (path : Text) (taken : List (Text × Text)) (x : Symbol) :
    (Verdict.of b path taken x).tool? = (offer? b path x).filter fun t => t.key ∉ taken := by
  unfold offer?
  rcases named_or_anonymous x with hx | ⟨n, hx, hn⟩
  · rw [Verdict.of_anonymous hx, Verdict.of_anonymous hx]
    rfl
  · rw [Verdict.of_named hx hn, Verdict.of_named hx hn]
    cases hr : Rejection.of? n path with
    | some r => rfl
    | none =>
      cases he : x.isExported with
      | false => rfl
      | true =>
        cases hb : b.build n x path with
        | error e => by_cases hk : (path, n) ∈ taken <;> simp [hk, Verdict.tool?]
        | ok t =>
          have hkey := b.key_of_build hb
          by_cases hk : (path, n) ∈ taken <;> simp [hk, hkey, Verdict.tool?, Option.filter]

/-- The tools of a file are those that its symbols offer, each key once. -/
theorem select_eq_fresh (b : Builder) (path : Text) (taken : List (Text × Text))
    (xs : List Symbol) :
    select b path taken xs = fresh Descriptor.key taken (xs.filterMap (offer? b path)) := by
  induction xs generalizing taken with
  | nil => rfl
  | cons x xs ih =>
    have hv := tool?_of b path taken x
    have hcons : select b path taken (x :: xs) = (Verdict.of b path taken x).tool?.toList ++
        select b path ((Verdict.of b path taken x).tool?.toList.map Descriptor.key ++ taken) xs := by
      unfold select
      rw [judge]
      cases h : (Verdict.of b path taken x).tool? <;> simp [h]
    rw [hcons, hv]
    cases ho : offer? b path x with
    | none =>
      rw [List.filterMap_cons_none ho]
      exact ih taken
    | some t =>
      rw [List.filterMap_cons_some ho]
      by_cases hk : t.key ∈ taken
      · rw [fresh_cons_of_mem hk]
        simpa [Option.filter, hk] using ih taken
      · rw [fresh_cons_of_notMem hk, ← ih]
        simp [Option.filter, hk]

/-- The name of a file in the project and the symbols in it, if it can be read. -/
def Scanner.parsed (d : Disk) (s : Scanner) (file : Text) : Except Failure (Text × FileSymbols) := do
  let path ← d.nameWithin s.root (.ofText file)
  let (l, t) ← source d (s.root.join (.ofText file))
  return (path, (Node.ofText l t).symbols)

namespace Scanner

theorem eq_of_parsed {d : Disk} {s : Scanner} {file path : Text} {symbols : FileSymbols}
    (h : s.parsed d file = .ok (path, symbols)) :
    d.nameWithin s.root (.ofText file) = .ok path ∧
      ∃ l t, source d (s.root.join (.ofText file)) = .ok (l, t) ∧
        symbols = (Node.ofText l t).symbols := by
  obtain ⟨path', hn, hrest⟩ := exists_of_bind_eq_ok h
  obtain ⟨⟨l, t⟩, hs, hend⟩ := exists_of_bind_eq_ok hrest
  cases hend
  exact ⟨hn, l, t, hs, rfl⟩

/-- Of the parsers that are kept, the way through a text shows no more than whether its grammar is loaded. -/
theorem scanText_eq (s : Scanner) (seen : List (Text × Text)) (path : Text) (l : Language) (t : Text) :
    s.scanText seen path l t = {
      scanner := { s with parsers := (s.parsers.parserFor l.name).parsers }
      records := (s.parsers.parserFor l.name).records ++ symbolRecords s.builder path seen (Node.ofText l t).symbols
      outcome := .ok (select s.builder path seen (Node.ofText l t).symbols.candidates) } := by
  have hparser : (s.parsers.parserFor l.name).outcome = .ok ⟨l⟩ := by
    rw [Parsers.outcome_parserFor, Language.ofName?_name]
  unfold scanText
  dsimp only
  rw [hparser]
  rfl

/-- Where the reports of symbols are no mere details, they stand under the name of the file. -/
theorem report_of_mem_symbolRecords {b : Builder} {path : Text} {seen : List (Text × Text)} {symbols : FileSymbols}
    {r : Log.Record} (h : r ∈ symbolRecords b path seen symbols) :
    (∃ u, r = report .debug u) ∨ ∃ level u, r = report level ("  - ".toList ++ u) := by
  simp only [symbolRecords, List.mem_append, List.mem_singleton, List.mem_filterMap, Option.map_eq_some_iff] at h
  rcases h with (h | ⟨-, -, n, -, rfl⟩) | rfl
  · split at h
    · exact Or.inl ⟨_, List.mem_singleton.mp h⟩
    · cases h
  · exact Or.inr ⟨n.1, n.2, rfl⟩
  · exact Or.inl ⟨_, rfl⟩

theorem scanFile_keeps (d : Disk) (s : Scanner) (seen : List (Text × Text)) (file : Text) :
    (s.scanFile d seen file).scanner.root = s.root ∧
      (s.scanFile d seen file).scanner.builder = s.builder := by
  unfold scanFile
  dsimp only
  cases d.nameWithin s.root (.ofText file) with
  | error e => exact ⟨rfl, rfl⟩
  | ok path =>
    cases source d (s.root.join (.ofText file)) with
    | error e => exact ⟨rfl, rfl⟩
    | ok lt =>
      dsimp only
      rw [scanText_eq]
      exact ⟨rfl, rfl⟩

/-- A file that can be read yields the tools of its symbols, and any other its failure. -/
theorem scanFile_outcome (d : Disk) (s : Scanner) (seen : List (Text × Text)) (file : Text) :
    (s.scanFile d seen file).outcome =
      (s.parsed d file).map fun f => select s.builder f.1 seen f.2.candidates := by
  unfold scanFile parsed
  dsimp only
  cases d.nameWithin s.root (.ofText file) with
  | error e => rfl
  | ok path =>
    cases source d (s.root.join (.ofText file)) with
    | error e => rfl
    | ok lt =>
      dsimp only
      rw [scanText_eq]
      rfl

end Scanner

/-- The symbols of the files that can be read, as the files are listed, with the names of the files. -/
def candidates (d : Disk) (s : Scanner) (files : List Text) : List (Text × Symbol) :=
  files.flatMap fun file =>
    match s.parsed d file with
    | .ok (path, symbols) => symbols.candidates.map (path, ·)
    | .error _ => []

/-- The tools that the files offer, with those that come up again. -/
def offers (d : Disk) (s : Scanner) (files : List Text) : List Descriptor :=
  (candidates d s files).filterMap fun c => offer? s.builder c.1 c.2

theorem offers_append (d : Disk) (s : Scanner) (xs ys : List Text) :
    offers d s (xs ++ ys) = offers d s xs ++ offers d s ys := by
  simp [offers, candidates]

theorem offers_singleton_ok {d : Disk} {s : Scanner} {file path : Text} {f : FileSymbols}
    (h : s.parsed d file = .ok (path, f)) :
    offers d s [file] = f.candidates.filterMap (offer? s.builder path) := by
  simp [offers, candidates, h, List.filterMap_map]

theorem offers_singleton_error {d : Disk} {s : Scanner} {file : Text} {e : Failure}
    (h : s.parsed d file = .error e) : offers d s [file] = [] := by
  simp [offers, candidates, h]

/-- What a file offers does not depend on the parsers that are kept. -/
theorem offers_congr {d : Disk} {s s' : Scanner} (hr : s.root = s'.root)
    (hb : s.builder = s'.builder) (files : List Text) : offers d s files = offers d s' files := by
  simp only [offers, candidates, Scanner.parsed, hr, hb]

namespace Progress

theorem step_of_error {d : Disk} {p : Progress} {file : Text} {e : Failure}
    (h : p.scanner.parsed d file = .error e) :
    let r := p.scanner.scanFile d (p.tools.map Descriptor.key) file
    p.step d file = { p with
      scanner := r.scanner, failed := p.failed + 1
      records := p.records ++ r.records ++ [Scanner.failure file e] } := by
  have hout := p.scanner.scanFile_outcome d (p.tools.map Descriptor.key) file
  rw [h] at hout
  simp only [step, hout, Except.map]

theorem step_of_ok {d : Disk} {p : Progress} {file path : Text} {f : FileSymbols}
    (h : p.scanner.parsed d file = .ok (path, f)) :
    let r := p.scanner.scanFile d (p.tools.map Descriptor.key) file
    p.step d file = { p with
      scanner := r.scanner, records := p.records ++ r.records
      tools := p.tools ++
        select p.scanner.builder path (p.tools.map Descriptor.key) f.candidates } := by
  have hout := p.scanner.scanFile_outcome d (p.tools.map Descriptor.key) file
  rw [h] at hout
  simp only [step, hout, Except.map]

/-- One file adds what it offers and is not yet there. -/
theorem step_tools (d : Disk) (p : Progress) (file : Text) :
    (p.step d file).tools =
      p.tools ++ fresh Descriptor.key (p.tools.map Descriptor.key) (offers d p.scanner [file]) := by
  cases h : p.scanner.parsed d file with
  | error e =>
    rw [step_of_error h, offers_singleton_error h]
    exact (List.append_nil _).symm
  | ok f => rw [step_of_ok h, offers_singleton_ok h, ← select_eq_fresh]

theorem step_scanner (d : Disk) (p : Progress) (file : Text) :
    (p.step d file).scanner = (p.scanner.scanFile d (p.tools.map Descriptor.key) file).scanner := by
  cases h : p.scanner.parsed d file with
  | error e => rw [step_of_error h]
  | ok f => rw [step_of_ok h]

/-- A run adds what its files offer and is not yet there. -/
theorem run_tools (d : Disk) (p : Progress) (files : List Text) :
    (files.foldl (step d) p).tools =
      p.tools ++ fresh Descriptor.key (p.tools.map Descriptor.key) (offers d p.scanner files) := by
  induction files generalizing p with
  | nil => simp [offers, candidates, fresh]
  | cons file files ih =>
    obtain ⟨hr, hb⟩ := p.scanner.scanFile_keeps d (p.tools.map Descriptor.key) file
    rw [← p.step_scanner d file] at hr hb
    rw [List.foldl_cons, ih, offers_congr hr hb, step_tools]
    have hcons : offers d p.scanner (file :: files) =
        offers d p.scanner [file] ++ offers d p.scanner files :=
      offers_append d p.scanner [file] files
    have hseen : ∀ k, k ∈ (p.tools ++ fresh Descriptor.key (p.tools.map Descriptor.key)
          (offers d p.scanner [file])).map Descriptor.key ↔
        k ∈ (fresh Descriptor.key (p.tools.map Descriptor.key)
          (offers d p.scanner [file])).map Descriptor.key ++ p.tools.map Descriptor.key := by
      intro k
      simp only [List.map_append, List.mem_append]
      exact or_comm
    rw [hcons, fresh_append, List.append_assoc, fresh_congr Descriptor.key hseen]

end Progress

/-- A scan finds what its files offer, each key once. -/
theorem scan_tools (d : Disk) (s : Scanner) (files : List Text) :
    (scan d s files).tools = fresh Descriptor.key [] (offers d s files) := by
  have h := Progress.run_tools d { scanner := s } files
  exact h

/-- At position `i` of the candidates stands the first that offers a tool with the key of `t`, and what it
offers is `t`. -/
def IsFirstOffer (b : Builder) (cs : List (Text × Symbol)) (i : Nat) (t : Descriptor) : Prop :=
  (∃ path x n, cs[i]? = some (path, x) ∧ Offers b path x n t ∧ t.key = (path, n)) ∧
    ∀ j < i, ∀ path x n u, cs[j]? = some (path, x) → Offers b path x n u → (path, n) ≠ t.key

theorem isFirstOffer_of_firstAt {b : Builder} {cs : List (Text × Symbol)} {i : Nat} {t : Descriptor}
    (h : FirstAt (fun c => offer? b c.1 c.2) Descriptor.key cs i t) : IsFirstOffer b cs i t := by
  obtain ⟨⟨⟨path, x⟩, hx, ht⟩, hfirst⟩ := h
  obtain ⟨n, ho⟩ := offer?_eq_some_iff.mp ht
  refine ⟨⟨path, x, n, hx, ho, ho.key_eq⟩, ?_⟩
  intro j hj path' x' n' u hx' hu he
  have hne := hfirst j hj (path', x') u hx' (offer?_eq_some_iff.mpr ⟨n', hu⟩)
  rw [hu.key_eq] at hne
  exact hne he

theorem mem_candidates {d : Disk} {s : Scanner} {files : List Text} {path : Text} {x : Symbol} :
    (path, x) ∈ candidates d s files ↔
      ∃ file ∈ files, ∃ symbols, s.parsed d file = .ok (path, symbols) ∧ x ∈ symbols.candidates := by
  unfold candidates
  rw [List.mem_flatMap]
  apply exists_congr
  intro file
  apply and_congr_right
  intro _
  cases h : s.parsed d file with
  | error e => simp
  | ok f => simp [Prod.ext_iff]; tauto

theorem mem_keys_offers {d : Disk} {s : Scanner} {files : List Text} {r n : Text} :
    (r, n) ∈ (offers d s files).map Descriptor.key ↔
      ∃ x t, (r, x) ∈ candidates d s files ∧ Offers s.builder r x n t := by
  constructor
  · intro h
    obtain ⟨t, ht, hk⟩ := List.mem_map.mp h
    obtain ⟨⟨path, x⟩, hx, ho⟩ := List.mem_filterMap.mp ht
    obtain ⟨m, ho⟩ := offer?_eq_some_iff.mp ho
    obtain ⟨rfl, rfl⟩ : path = r ∧ m = n := by
      rw [ho.key_eq] at hk
      simpa using hk
    exact ⟨x, t, hx, ho⟩
  · rintro ⟨x, t, hx, ho⟩
    refine List.mem_map.mpr ⟨t, List.mem_filterMap.mpr ⟨(r, x), hx, ?_⟩, ho.key_eq⟩
    exact offer?_eq_some_iff.mpr ⟨n, ho⟩

/-- A scan finds each tool once. It finds a tool of a name in a file exactly if a listed file of that name
can be read and a symbol in it offers the tool, and what it finds is what the first such symbol offers;
the tools stand in the order of these symbols, which is that of the files and in each file that of its
text, for functions, then bound variables, then methods. -/
theorem scan_finds_first_offers (d : Disk) (s : Scanner) (files : List Text) :
    let tools := (scan d s files).tools
    (tools.map Descriptor.key).Nodup ∧
    (∀ r n, (r, n) ∈ tools.map Descriptor.key ↔
      ∃ file ∈ files, ∃ symbols, s.parsed d file = .ok (r, symbols) ∧
        ∃ x ∈ symbols.candidates, ∃ t, Offers s.builder r x n t) ∧
    (∃ positions : List Nat, positions.Pairwise (· < ·) ∧
      List.Forall₂ (IsFirstOffer s.builder (candidates d s files)) positions tools) ∧
    ∀ file r symbols, s.parsed d file = .ok (r, symbols) →
      ∃ l t, Scanner.source d (s.root.join (.ofText file)) = .ok (l, t) ∧
        (Node.ofText l t).Orders symbols.candidates := by
  intro tools
  have htools : tools = fresh Descriptor.key [] (offers d s files) := scan_tools d s files
  refine ⟨?_, ?_, ?_, ?_⟩
  · rw [htools]
    exact nodup_keys_fresh _ _ _
  · intro r n
    rw [htools, mem_keys_fresh, mem_keys_offers]
    simp only [mem_candidates, List.not_mem_nil, not_false_eq_true, and_true]
    constructor
    · rintro ⟨x, t, ⟨file, hf, symbols, hp, hx⟩, ho⟩
      exact ⟨file, hf, symbols, hp, x, hx, t, ho⟩
    · rintro ⟨file, hf, symbols, hp, x, hx, t, ho⟩
      exact ⟨x, t, ⟨file, hf, symbols, hp, hx⟩, ho⟩
  · obtain ⟨positions, hlt, hall⟩ := fresh_positions (fun c => offer? s.builder c.1 c.2)
      Descriptor.key [] (candidates d s files)
    rw [htools]
    exact ⟨positions, hlt, hall.imp fun i t h => isFirstOffer_of_firstAt h.1⟩
  · intro file r symbols h
    obtain ⟨-, l, t, hs, rfl⟩ := Scanner.eq_of_parsed h
    exact ⟨l, t, hs, Node.orders_candidates _⟩

end CodeManifest.Tool
