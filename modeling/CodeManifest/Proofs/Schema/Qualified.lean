import CodeManifest.Proofs.Schema.Tables
import CodeManifest.Sql.Read.Statement

namespace CodeManifest.Sql.Statement

/-- The statement with the name of its table alone, whatever stands in front of that. -/
def unqualified : Statement → Statement
  | .table c => .table { c with qualifier := [] }
  | .index i => .index { i with qualifier := [] }
  | .command c => .command c
  | .other => .other

end CodeManifest.Sql.Statement

namespace CodeManifest.Schema

open CodeManifest.Sql

theorem step_unqualified (d : Dialect) (acc : Keyed Text Table × List (Text × Text)) (st : Statement) :
    collect.step d acc st.unqualified = collect.step d acc st := by
  cases st <;> rfl

theorem tables_map_unqualified (d : Dialect) (sts : List Statement) :
    tables d (sts.map Statement.unqualified) = tables d sts := by
  have hcollect : collect d (sts.map Statement.unqualified) = collect d sts := by
    unfold collect
    rw [List.foldlM_map]
    simp only [step_unqualified]
  unfold tables
  rw [hcollect]

/-- The statement at `i` creates a table that is called `k` in small letters. -/
def CreatesAt (sts : List Statement) (i : Nat) (k : Text) : Prop := sts[i]?.bind tableKey? = some k

/-- The table with the indexes that the statements create on its name, behind its own. -/
def Table.indexed (sts : List Statement) (t : Table) : Table :=
  { t with indexes := t.indexes ++ indexesOn (Text.lower t.name) sts }

/-- The statement at `i` makes the table `t`, which also has the indexes of the file on its name. -/
def MadeAt (d : Dialect) (sts : List Statement) (i : Nat) (t : Table) : Prop :=
  ∃ c u, sts[i]? = some (.table c) ∧ Table.ofCreate d c = .ok (some u) ∧ t = u.indexed sts

theorem tables_eq_indexed {d : Dialect} {sts : List Statement} (h : Buildable d sts) :
    tables d sts = .ok ((Keyed.ofList (sts.filterMap (namedTable? d))).map fun e => e.2.indexed sts) := by
  rw [tables_of_buildable h]
  refine congrArg Except.ok (List.map_congr_left ?_)
  intro e he
  rw [(last_of_mem_ofList h he).1, Table.indexed]

/-- A name that a statement creates is one of those under which the tables are put in. -/
theorem CreatesAt.mem_keys {d : Dialect} {sts : List Statement} (h : Buildable d sts) {i : Nat} {k : Text}
    (hi : CreatesAt sts i k) : k ∈ Keyed.keys (Keyed.ofList (sts.filterMap (namedTable? d))) := by
  obtain ⟨st, hst, hk⟩ := Option.bind_eq_some_iff.mp hi
  exact (Keyed.mem_keys_ofList_filterMap fun _ => map_fst_namedTable? h).mpr ⟨st, List.mem_of_getElem? hst, hk⟩

/-- Of the statements that create a table with the name of an entry, the last one has made it. -/
theorem last_at_of_mem_ofList {d : Dialect} {sts : List Statement} (h : Buildable d sts)
    {e : Text × Table} (he : e ∈ Keyed.ofList (sts.filterMap (namedTable? d))) :
    ∃ l, CreatesAt sts l e.1 ∧ (∀ i, CreatesAt sts i e.1 → i ≤ l) ∧
      MadeAt d sts l (e.2.indexed sts) := by
  obtain ⟨hk, before, c, after, hsts, hc, hlast⟩ := last_of_mem_ofList h he
  have hat : sts[before.length]? = some (.table c) := by
    rw [hsts, List.getElem?_append_right (Nat.le_refl _), Nat.sub_self, List.getElem?_cons_zero]
  have hcreates : CreatesAt sts before.length e.1 := by
    rw [CreatesAt, hat, hk]
    exact tableKey?_of_ofCreate hc
  refine ⟨before.length, hcreates, ?_, c, e.2, hat, hc, rfl⟩
  intro i hi
  by_contra hlt
  obtain ⟨n, rfl⟩ := Nat.exists_eq_add_of_lt (Nat.lt_of_not_le hlt)
  obtain ⟨st, hst, hkey⟩ := Option.bind_eq_some_iff.mp hi
  have hafter : after[n]? = some st := by
    rw [← hst, hsts, List.getElem?_append_right (by omega), Nat.add_assoc, Nat.add_sub_cancel_left,
      List.getElem?_cons_succ]
  exact hlast st (List.mem_of_getElem? hafter) hkey

/-- Nothing is read of what stands in front of the name of a table. So of the statements that create tables
of one name, in whatever schemas, the last one makes the only table of this name that is left, and each
index on any of them goes to it. Where no later statement creates its name, a table keeps its own columns. -/
theorem tables_unqualified (d : Dialect) (sts : List Statement) :
    (∀ sts' : List Statement, sts'.map Statement.unqualified = sts.map Statement.unqualified →
      tables d sts' = tables d sts) ∧
    ∀ ts, tables d sts = .ok ts → ∀ k i, CreatesAt sts i k →
      ∃ l t, CreatesAt sts l k ∧ (∀ j, CreatesAt sts j k → j ≤ l) ∧ MadeAt d sts l t ∧
        ts.filter (fun t => Text.lower t.name = k) = [t] := by
  constructor
  · intro sts' h
    rw [← tables_map_unqualified, h, tables_map_unqualified]
  intro ts hts k i hi
  have hb := buildable_of_tables hts
  let entries := Keyed.ofList (sts.filterMap (namedTable? d))
  have heq : ts = entries.map fun e => e.2.indexed sts := by
    rw [tables_eq_indexed hb] at hts
    exact (Except.ok.inj hts).symm
  obtain ⟨e, he, rfl⟩ := List.mem_map.mp (hi.mem_keys hb)
  obtain ⟨l, hl, hlast, hmade⟩ := last_at_of_mem_ofList hb he
  refine ⟨l, e.2.indexed sts, hl, hlast, hmade, ?_⟩
  have hname : ∀ f ∈ entries, decide (Text.lower f.2.name = e.1) = decide (f.1 = e.1) := by
    intro f hf
    rw [(last_of_mem_ofList hb hf).1]
  have hfilter : entries.filter (fun f => Text.lower f.2.name = e.1) = [e] :=
    (List.filter_congr hname).trans (Keyed.filter_of_mem (Keyed.nodup_keys_ofList _) he)
  rw [heq, List.filter_map]
  exact congrArg (List.map fun f => f.2.indexed sts) hfilter

/-- Tables of one name in two schemas, and an index on the first. -/
def twoSchemas : Text := "CREATE TABLE s.t(a INT);CREATE TABLE u.t(b INT);CREATE INDEX i ON s.t(a)"

/-- The statements create a table in each of two schemas, and only that of the second is left, with an index
on the first. -/
def LosesFirst (found : List (Option Statement)) : Prop :=
  ∃ c c' i t, found = [some (.table c), some (.table c'), some (.index i)] ∧
    c.qualifier = ["s"] ∧ c'.qualifier = ["u"] ∧ i.qualifier = ["s"] ∧
    c.name = "t" ∧ c'.name = "t" ∧ i.table = "t" ∧
    tables .mysql [.table c, .table c', .index i] = .ok [t] ∧ t.columns.keys = ["b"] ∧ t.indexes = ["i"]

private def losesFirst : List (Option Statement) → Bool
  | [some (.table c), some (.table c'), some (.index i)] =>
    (c.qualifier = ["s"] && c'.qualifier = ["u"] && i.qualifier = ["s"]) &&
    (c.name = "t" && c'.name = "t" && i.table = "t") &&
      match tables .mysql [.table c, .table c', .index i] with
      | .ok [t] => t.columns.keys = ["b"] && t.indexes = ["i"]
      | _ => false
  | _ => false

private theorem losesFirst_of_eq_true {found : List (Option Statement)} (h : losesFirst found = true) :
    LosesFirst found := by
  unfold losesFirst at h
  split at h
  next c c' i =>
    simp only [Bool.and_eq_true, decide_eq_true_eq] at h
    obtain ⟨⟨⟨⟨hs, hu⟩, hon⟩, ⟨hc, hc'⟩, hi⟩, hleft⟩ := h
    split at hleft
    next t ht =>
      simp only [Bool.and_eq_true, decide_eq_true_eq] at hleft
      exact ⟨c, c', i, t, rfl, hs, hu, hon, hc, hc', hi, ht, hleft.1, hleft.2⟩
    next => cases hleft
  next => cases h

private theorem twoSchemas_parsed : (Statement.parse .mysql twoSchemas).map losesFirst = some true := by
  decide +kernel

/-- The table of the schema `s` is lost to that of `u`, which receives the index on it. -/
theorem twoSchemas_lose : ∃ found, Statement.parse .mysql twoSchemas = some found ∧ LosesFirst found := by
  obtain ⟨found, hfound, h⟩ := Option.map_eq_some_iff.mp twoSchemas_parsed
  exact ⟨found, hfound, losesFirst_of_eq_true h⟩

end CodeManifest.Schema
