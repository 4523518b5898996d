import CodeManifest.Proofs.Except
import CodeManifest.Proofs.Keyed
import CodeManifest.Schema.Table
import CodeManifest.Sql.Read.Statement

namespace CodeManifest.Schema

open CodeManifest.Sql

namespace Draft

theorem constrain_name (n : Text) (s : Draft) (c : TableConstraint) :
    (constrain n s c).table.name = s.table.name := by
  cases c <;> rfl

theorem foldl_constrain_name (n : Text) (s : Draft) (cs : List TableConstraint) :
    (cs.foldl (constrain n) s).table.name = s.table.name := by
  induction cs generalizing s with
  | nil => rfl
  | cons c cs ih => rw [List.foldl_cons, ih, constrain_name]

theorem add_name {d : Dialect} {s s' : Draft} {e : TableElement} (h : s.add d e = .ok s') :
    s'.table.name = s.table.name := by
  cases e with
  | column c =>
    unfold add at h
    dsimp only at h
    by_cases hn : c.name.isEmpty
    · rw [if_pos hn] at h
      cases h
      rfl
    · rw [if_neg hn] at h
      obtain ⟨column, -, hcolumn⟩ := exists_of_bind_eq_ok h
      cases hcolumn
      rfl
  | named n cs =>
    cases h
    exact foldl_constrain_name n s cs
  | constraint c =>
    cases h
    exact constrain_name [] s c

end Draft

/-- A table goes by the name of its definition; only a definition without a name makes none. -/
theorem name_of_ofCreate {d : Dialect} {c : CreateTable} {o : Option Table}
    (h : Table.ofCreate d c = .ok o) :
    o.map Table.name = if c.name.isEmpty then none else some c.name := by
  unfold Table.ofCreate at h
  by_cases hn : c.name.isEmpty
  · rw [if_pos hn] at h ⊢
    cases h
    rfl
  · rw [if_neg hn] at h ⊢
    obtain ⟨s, hs, hfinish⟩ := exists_of_bind_eq_ok h
    cases hfinish
    exact congrArg some (foldlM_keeps (g := fun s => s.table.name) (fun _ _ _ => Draft.add_name) hs)

/-- The name in small letters of the table that a statement creates. -/
def tableKey? : Statement → Option Text
  | .table c => if c.name.isEmpty then none else some (Text.lower c.name)
  | _ => none

/-- The table that a statement creates, under its name in small letters. -/
def namedTable? (d : Dialect) : Statement → Option (Text × Table)
  | .table c =>
    match Table.ofCreate d c with
    | .ok (some t) => some (Text.lower t.name, t)
    | _ => none
  | _ => none

/-- The table and the name of the index that a statement creates by itself. -/
def namedIndex? : Statement → Option (Text × Text)
  | .index i => indexTarget i
  | _ => none

/-- The indexes that statements create on the table with the name `k` in small letters. -/
def indexesOn (k : Text) (sts : List Statement) : List Text :=
  ((sts.filterMap namedIndex?).filter fun e => Text.lower e.1 = k).map Prod.snd

/-- Every table that the statements create can be built. -/
def Buildable (d : Dialect) (sts : List Statement) : Prop :=
  ∀ c, Statement.table c ∈ sts → ∃ o, Table.ofCreate d c = .ok o

theorem namedTable?_eq_some {d : Dialect} {st : Statement} {e : Text × Table}
    (h : namedTable? d st = some e) :
    ∃ c, st = .table c ∧ Table.ofCreate d c = .ok (some e.2) ∧ e.1 = Text.lower e.2.name := by
  unfold namedTable? at h
  split at h
  next c =>
    split at h
    next t ht =>
      cases h
      exact ⟨c, rfl, ht, rfl⟩
    next => cases h
  next => cases h

theorem tableKey?_of_ofCreate {d : Dialect} {c : CreateTable} {o : Option Table}
    (h : Table.ofCreate d c = .ok o) :
    tableKey? (.table c) = o.map fun t => Text.lower t.name := by
  have hmap : (o.map fun t => Text.lower t.name) = (o.map Table.name).map Text.lower := by
    rw [Option.map_map]
    rfl
  rw [hmap, name_of_ofCreate h]
  unfold tableKey?
  dsimp only
  split
  · rfl
  · rfl

theorem map_fst_namedTable? {d : Dialect} {sts : List Statement} (h : Buildable d sts)
    {st : Statement} (hst : st ∈ sts) : (namedTable? d st).map Prod.fst = tableKey? st := by
  cases st with
  | table c =>
    obtain ⟨o, ho⟩ := h c hst
    rw [tableKey?_of_ofCreate ho]
    unfold namedTable?
    dsimp only
    rw [ho]
    cases o with
    | none => rfl
    | some t => rfl
  | index i => rfl
  | command c => rfl
  | other => rfl

/-- A table that can be built is put in under its name, and one without a name is not. -/
theorem step_table {d : Dialect} {c : CreateTable} {o : Option Table}
    (acc : Keyed Text Table × List (Text × Text)) (h : Table.ofCreate d c = .ok o) :
    collect.step d acc (.table c) = .ok (match o with
      | some t => (acc.1.put (Text.lower t.name) t, acc.2)
      | none => acc) := by
  simp only [collect.step, h]
  cases o <;> rfl

theorem foldlM_step_of_buildable {d : Dialect} {sts : List Statement} (h : Buildable d sts)
    (acc : Keyed Text Table × List (Text × Text)) :
    sts.foldlM (collect.step d) acc =
      .ok ((sts.filterMap (namedTable? d)).foldl (fun ts e => ts.put e.1 e.2) acc.1,
        acc.2 ++ sts.filterMap namedIndex?) := by
  induction sts generalizing acc with
  | nil => simp; rfl
  | cons st sts ih =>
    have hsts : Buildable d sts := fun c hc => h c (List.mem_cons_of_mem _ hc)
    rw [List.foldlM_cons]
    cases st with
    | table c =>
      obtain ⟨o, ho⟩ := h c List.mem_cons_self
      rw [step_table acc ho]
      cases o with
      | none =>
        have hnone : namedTable? d (.table c) = none := by simp [namedTable?, ho]
        rw [List.filterMap_cons_none hnone, List.filterMap_cons_none rfl]
        exact ih hsts acc
      | some t =>
        have hsome : namedTable? d (.table c) = some (Text.lower t.name, t) := by
          simp [namedTable?, ho]
        rw [List.filterMap_cons_some hsome, List.filterMap_cons_none rfl]
        exact ih hsts _
    | index i =>
      have hstep : collect.step d acc (.index i) = .ok (acc.1, acc.2 ++ (indexTarget i).toList) := rfl
      rw [hstep, List.filterMap_cons_none rfl]
      refine (ih hsts _).trans ?_
      cases hi : indexTarget i with
      | none =>
        have hnone : namedIndex? (.index i) = none := hi
        rw [List.filterMap_cons_none hnone]
        simp
      | some e =>
        have hsome : namedIndex? (.index i) = some e := hi
        rw [List.filterMap_cons_some hsome]
        simp
    | command c => exact ih hsts acc
    | other => exact ih hsts acc

theorem buildable_of_foldlM_step {d : Dialect} {sts : List Statement}
    {acc r : Keyed Text Table × List (Text × Text)} (h : sts.foldlM (collect.step d) acc = .ok r) :
    Buildable d sts := by
  induction sts generalizing acc with
  | nil => exact fun c hc => absurd hc List.not_mem_nil
  | cons st sts ih =>
    rw [List.foldlM_cons] at h
    obtain ⟨acc', hs, hrest⟩ := exists_of_bind_eq_ok h
    intro c hc
    rcases List.mem_cons.mp hc with rfl | hc
    · obtain ⟨o, ho, -⟩ := exists_of_bind_eq_ok hs
      exact ⟨o, ho⟩
    · exact ih hrest c hc

/-- Each table receives the indexes on it, behind those that it has. -/
theorem foldl_addIndex {ts : Keyed Text Table} (h : ts.keys.Nodup) (is : List (Text × Text)) :
    is.foldl (fun ts (t, i) => ts.modify (Text.lower t) (Table.addIndex i)) ts =
      ts.map fun e => (e.1, { e.2 with
        indexes := e.2.indexes ++ (is.filter fun i => Text.lower i.1 = e.1).map Prod.snd }) := by
  induction is generalizing ts with
  | nil => simp
  | cons i is ih =>
    have hkeys : (ts.modify (Text.lower i.1) (Table.addIndex i.2)).keys.Nodup := by
      rw [Keyed.keys_modify]
      exact h
    rw [List.foldl_cons, ih hkeys, Keyed.modify_eq_map h, List.map_map]
    apply List.map_congr_left
    intro e _
    by_cases he : e.1 = Text.lower i.1
    · simp [he, Table.addIndex]
    · simp [he, Ne.symm he]

theorem tables_of_buildable {d : Dialect} {sts : List Statement} (h : Buildable d sts) :
    tables d sts = .ok ((Keyed.ofList (sts.filterMap (namedTable? d))).map fun e =>
      { e.2 with indexes := e.2.indexes ++ indexesOn e.1 sts }) := by
  have hcollect : collect d sts = .ok (Keyed.ofList (sts.filterMap (namedTable? d)),
      sts.filterMap namedIndex?) := foldlM_step_of_buildable h ([], [])
  unfold tables
  rw [hcollect]
  have hadd := foldl_addIndex (Keyed.nodup_keys_ofList (sts.filterMap (namedTable? d)))
    (sts.filterMap namedIndex?)
  refine congrArg Except.ok ?_
  dsimp only
  rw [hadd, List.map_map]
  rfl

theorem buildable_of_tables {d : Dialect} {sts : List Statement} {ts : List Table}
    (h : tables d sts = .ok ts) : Buildable d sts := by
  obtain ⟨r, hr, -⟩ := exists_of_bind_eq_ok h
  exact buildable_of_foldlM_step hr

theorem filterMap_tableKey? {d : Dialect} {sts : List Statement} (h : Buildable d sts) :
    (sts.filterMap (namedTable? d)).map Prod.fst = sts.filterMap tableKey? := by
  rw [List.map_filterMap]
  apply List.filterMap_congr
  intro st hst
  exact map_fst_namedTable? h hst

/-- The last statement that puts an entry under its key. -/
theorem last_of_mem_ofList {d : Dialect} {sts : List Statement} (h : Buildable d sts)
    {e : Text × Table} (he : e ∈ Keyed.ofList (sts.filterMap (namedTable? d))) :
    e.1 = Text.lower e.2.name ∧ ∃ before c after, sts = before ++ .table c :: after ∧
      Table.ofCreate d c = .ok (some e.2) ∧ ∀ st ∈ after, tableKey? st ≠ some e.1 := by
  obtain ⟨before, st, after, hsts, hst, hlast⟩ :=
    Keyed.exists_last_of_mem_ofList (fun _ => map_fst_namedTable? h) he
  obtain ⟨c, rfl, hc, hk⟩ := namedTable?_eq_some hst
  exact ⟨hk, before, c, after, hsts, hc, hlast⟩

/-- The tables of a file are there exactly if each can be built. Their names differ in small letters; they
stand in the order in which these names are first created; each is what the last statement makes that
creates its name, with the indexes of the whole file on that name behind its own; and no table is lost. -/
theorem tables_merge (d : Dialect) (sts : List Statement) :
    ((∃ ts, tables d sts = .ok ts) ↔
      ∀ c, Statement.table c ∈ sts → ∃ o, Table.ofCreate d c = .ok o) ∧
    ∀ ts, tables d sts = .ok ts →
      (ts.map fun t => Text.lower t.name).Nodup ∧
      (∃ positions : List Nat, positions.Pairwise (· < ·) ∧
        List.Forall₂ (fun i t => FirstAt tableKey? id sts i (Text.lower t.name)) positions ts) ∧
      (∀ t ∈ ts, ∃ before c after u, sts = before ++ .table c :: after ∧
        (∀ st ∈ after, tableKey? st ≠ some (Text.lower t.name)) ∧
        Table.ofCreate d c = .ok (some u) ∧
        t = { u with indexes := u.indexes ++ indexesOn (Text.lower t.name) sts }) ∧
      ∀ c u, Statement.table c ∈ sts → Table.ofCreate d c = .ok (some u) →
        ∃ t ∈ ts, Text.lower t.name = Text.lower u.name := by
  refine ⟨⟨fun ⟨ts, h⟩ => buildable_of_tables h, fun h => ⟨_, tables_of_buildable h⟩⟩, ?_⟩
  intro ts hts
  have hb := buildable_of_tables hts
  let entries := Keyed.ofList (sts.filterMap (namedTable? d))
  have heq : ts = entries.map fun e => { e.2 with indexes := e.2.indexes ++ indexesOn e.1 sts } := by
    rw [tables_of_buildable hb] at hts
    exact (Except.ok.inj hts).symm
  have hkeys : ts.map (fun t => Text.lower t.name) = entries.keys := by
    rw [heq, List.map_map]
    apply List.map_congr_left
    intro e he
    exact (last_of_mem_ofList hb he).1.symm
  have hfirst : entries.keys = fresh id [] (sts.filterMap tableKey?) := by
    rw [Keyed.keys_ofList, filterMap_tableKey? hb]
  refine ⟨?_, ?_, ?_, ?_⟩
  · rw [hkeys]
    exact Keyed.nodup_keys_ofList _
  · obtain ⟨positions, hlt, hall⟩ := fresh_positions tableKey? id [] sts
    rw [← hfirst, ← hkeys, List.forall₂_map_right_iff] at hall
    exact ⟨positions, hlt, hall.imp fun i t h => h.1⟩
  · intro t ht
    rw [heq] at ht
    obtain ⟨e, he, rfl⟩ := List.mem_map.mp ht
    obtain ⟨hk, before, c, after, hsts, hc, hlast⟩ := last_of_mem_ofList hb he
    dsimp only
    rw [← hk]
    exact ⟨before, c, after, e.2, hsts, hlast, hc, rfl⟩
  · intro c u hc hu
    have hkey : Text.lower u.name ∈ ts.map fun t => Text.lower t.name := by
      have hown : tableKey? (.table c) = some (Text.lower u.name) := tableKey?_of_ofCreate hu
      have hmem := (mem_keys_fresh id [] (sts.filterMap tableKey?) (Text.lower u.name)).mpr
      rw [List.map_id, List.map_id] at hmem
      rw [hkeys, hfirst]
      exact hmem ⟨List.mem_filterMap.mpr ⟨_, hc, hown⟩, List.not_mem_nil⟩
    obtain ⟨t, ht, hk⟩ := List.mem_map.mp hkey
    exact ⟨t, ht, hk⟩

/-- A table that can be built, and one with a column whose type has no title. -/
def goodAndBad : Text := "CREATE TABLE good (a INT);CREATE TABLE bad (b INTERVAL DAY)"

/-- The first statement makes a table with the column `a`, and no tables come of the two. -/
def LosesGood (found : List (Option Statement)) : Prop :=
  ∃ c c' t failure, found = [some (.table c), some (.table c')] ∧ Table.ofCreate .mysql c = .ok (some t) ∧
    t.name = "good" ∧ t.columns.keys = ["a"] ∧ tables .mysql [.table c, .table c'] = .error failure

private def losesGood : List (Option Statement) → Bool
  | [some (.table c), some (.table c')] =>
    match Table.ofCreate .mysql c, tables .mysql [.table c, .table c'] with
    | .ok (some t), .error _ => t.name = "good" && t.columns.keys = ["a"]
    | _, _ => false
  | _ => false

private theorem losesGood_of_eq_true {found : List (Option Statement)} (h : losesGood found = true) :
    LosesGood found := by
  unfold losesGood at h
  split at h
  next c c' =>
    split at h
    next t failure ht hfailure =>
      rw [Bool.and_eq_true, decide_eq_true_eq, decide_eq_true_eq] at h
      exact ⟨c, c', t, failure, rfl, ht, h.1, h.2, hfailure⟩
    next => cases h
  next => cases h

private theorem goodAndBad_parsed : (Statement.parse .mysql goodAndBad).map losesGood = some true := by
  decide +kernel

/-- A table is lost to another of the file whose column has no title. -/
theorem goodAndBad_lose : ∃ found, Statement.parse .mysql goodAndBad = some found ∧ LosesGood found := by
  obtain ⟨found, hfound, h⟩ := Option.map_eq_some_iff.mp goodAndBad_parsed
  exact ⟨found, hfound, losesGood_of_eq_true h⟩

end CodeManifest.Schema
