import CodeManifest.Proofs.Schema.Column
import CodeManifest.Sql.Read.Statement

namespace CodeManifest.Sql

/-- Columns that refer to a table, as far as it is said to which and to which columns of it. -/
structure Referral where
  columns : List Text
  target : Option Reference

namespace Referral

def table? (r : Referral) : Option Text := r.target.bind fun t => if t.table.isEmpty then none else some t.table

/-- The columns that are referred to, without those that have no name. -/
def targets (r : Referral) : List Text := r.target.elim [] fun t => t.columns.filter (! ·.isEmpty)

/-- A foreign key for each column, with the column that stands at its place in the target, if one does. -/
def keys (r : Referral) : List Schema.ForeignKey := r.columns.mapIdx fun i c => ⟨c, r.table?, r.targets[i]?⟩

end Referral

namespace TableConstraint

/-- The columns that are listed as a primary key. -/
def listed : TableConstraint → List Text
  | .primaryKey columns => columns
  | _ => []

def referral? : TableConstraint → Option Referral
  | .foreignKey columns target => some ⟨columns, target⟩
  | _ => none

/-- The name of the index, if the constraint makes one. A name in front of it counts before its own, and one
that has neither goes by its table and columns. -/
def index? (table name : Text) : TableConstraint → Option Text
  | .index own columns | .unique own columns =>
    some (Schema.indexName table columns (if name.isEmpty then own else name))
  | _ => none

end TableConstraint

namespace TableElement

/-- The column that is defined, unless it has no name. -/
def column? : TableElement → Option ColumnDef
  | .column c => if c.name.isEmpty then none else some c
  | _ => none

theorem column?_eq_some {e : TableElement} {c : ColumnDef} :
    e.column? = some c ↔ e = .column c ∧ c.name ≠ [] := by
  cases e with
  | column c' =>
    by_cases hn : c'.name = []
    · simp only [column?, hn, List.isEmpty_nil, if_true, reduceCtorEq, false_iff]
      rintro ⟨he, hne⟩
      cases he
      exact hne hn
    · simp only [column?, List.isEmpty_iff, hn, if_false, Option.some.injEq]
      constructor
      · rintro rfl
        exact ⟨rfl, hn⟩
      · rintro ⟨he, -⟩
        exact TableElement.column.inj he
  | constraint k => simp [column?]
  | named n ks => simp [column?]

def columnName? (e : TableElement) : Option Text := e.column?.map ColumnDef.name

/-- The constraints on the table, each with the name that is given in front of it. -/
def constraints : TableElement → List (Text × TableConstraint)
  | .column _ => []
  | .constraint c => [([], c)]
  | .named name cs => cs.map fun c => (name, c)

def listed (e : TableElement) : List Text := e.constraints.flatMap fun c => c.2.listed

/-- The clauses that refer to a table: those of a column, or constraints on the table. -/
def referrals (e : TableElement) : List Referral :=
  (e.column?.toList.flatMap fun c => (c.constraints.filterMap ColumnConstraint.target?).map fun t => ⟨[c.name], some t⟩)
    ++ e.constraints.filterMap fun c => c.2.referral?

def indexes (table : Text) (e : TableElement) : List Text := e.constraints.filterMap fun c => c.2.index? table c.1

end TableElement

end CodeManifest.Sql

namespace CodeManifest.Schema

open CodeManifest.Sql

theorem foreignKeys_eq_keys (r : Referral) : foreignKeys r.columns r.target = r.keys := by
  obtain ⟨columns, target⟩ := r
  unfold Referral.keys
  rw [List.mapIdx_eq_zipIdx_map]
  cases target with
  | none =>
    have hfst : columns.zipIdx.map Prod.fst = columns := List.zipIdx_map_fst 0 columns
    simp only [foreignKeys, Referral.table?, Referral.targets]
    conv_lhs => rw [← hfst, List.map_map]
    rfl
  | some t => rfl

theorem length_keys (r : Referral) : r.keys.length = r.columns.length := List.length_mapIdx

/-- The column of an element under its name, if it can be built. -/
def keyed? (d : Dialect) (e : TableElement) : Option (Text × Column) :=
  e.column?.bind fun c => (Column.ofDef d c).toOption.map fun column => (c.name, column)

theorem keyed?_eq_some {d : Dialect} {e : TableElement} {x : Text × Column} :
    keyed? d e = some x ↔ ∃ c, e.column? = some c ∧ c.name = x.1 ∧ Column.ofDef d c = .ok x.2 := by
  unfold keyed?
  rw [Option.bind_eq_some_iff]
  refine exists_congr fun c => and_congr_right fun _ => ?_
  cases Column.ofDef d c with
  | error u => simp [Except.toOption]
  | ok column => simp [Except.toOption, Prod.ext_iff]

/-- Where the columns can be built, an element gives an entry if it defines a column. -/
theorem map_fst_keyed? {d : Dialect} {e : TableElement} (h : isTitledElement e = true) :
    (keyed? d e).map Prod.fst = e.columnName? := by
  unfold keyed? TableElement.columnName?
  cases hc : e.column? with
  | none => rfl
  | some c =>
    obtain ⟨rfl, hn⟩ := TableElement.column?_eq_some.mp hc
    have htitled : c.type.all isTitled = true := by simpa [isTitledElement, hn] using h
    obtain ⟨column, hcolumn⟩ := (exists_ofDef (d := d)).mpr htitled
    simp [hcolumn, Except.toOption]

namespace Draft

/-- What is put on record of a constraint: it never touches a column. -/
theorem constrain_eq (n : Text) (s : Draft) (k : TableConstraint) :
    constrain n s k = {
      table := { s.table with
        indexes := s.table.indexes ++ (k.index? s.table.name n).toList
        foreignKeys := s.table.foreignKeys ++ k.referral?.toList.flatMap Referral.keys }
      primaryKeys := s.primaryKeys ++ k.listed } := by
  cases k with
  | foreignKey columns target =>
    have hkeys := foreignKeys_eq_keys ⟨columns, target⟩
    simp [constrain, TableConstraint.index?, TableConstraint.referral?, TableConstraint.listed, hkeys]
  | _ => simp [constrain, TableConstraint.index?, TableConstraint.referral?, TableConstraint.listed]

theorem foldl_constrain (s : Draft) (ks : List (Text × TableConstraint)) :
    ks.foldl (fun s k => constrain k.1 s k.2) s = {
      table := { s.table with
        indexes := s.table.indexes ++ ks.filterMap fun k => k.2.index? s.table.name k.1
        foreignKeys := s.table.foreignKeys ++ (ks.filterMap fun k => k.2.referral?).flatMap Referral.keys }
      primaryKeys := s.primaryKeys ++ ks.flatMap fun k => k.2.listed } := by
  induction ks generalizing s with
  | nil => simp
  | cons k ks ih =>
    rw [List.foldl_cons, ih, constrain_eq]
    cases hi : k.2.index? s.table.name k.1 <;> cases hr : k.2.referral? <;> simp [hi, hr]

/-- An element adds its entry, its indexes, the keys of its referrals and the columns that it lists. -/
theorem add_eq_ok {d : Dialect} {s s' : Draft} {e : TableElement} (h : s.add d e = .ok s') :
    s' = {
      table := { s.table with
        columns := (keyed? d e).elim s.table.columns fun x => s.table.columns.put x.1 x.2
        indexes := s.table.indexes ++ e.indexes s.table.name
        foreignKeys := s.table.foreignKeys ++ e.referrals.flatMap Referral.keys }
      primaryKeys := s.primaryKeys ++ e.listed } := by
  cases e with
  | constraint k =>
    cases h
    exact foldl_constrain s [([], k)]
  | named n ks =>
    cases h
    have hfold := foldl_constrain s (ks.map fun k => (n, k))
    rw [List.foldl_map] at hfold
    exact hfold
  | column c =>
    unfold add at h
    dsimp only at h
    by_cases hn : c.name.isEmpty = true
    · have hc : (TableElement.column c).column? = none := if_pos hn
      rw [if_pos hn] at h
      cases h
      simp [keyed?, TableElement.indexes, TableElement.referrals, TableElement.listed, TableElement.constraints, hc]
    · have hc : (TableElement.column c).column? = some c := if_neg hn
      rw [if_neg hn] at h
      obtain ⟨column, hcolumn, hs⟩ := exists_of_bind_eq_ok h
      have hkeyed : keyed? d (.column c) = some (c.name, column) := keyed?_eq_some.mpr ⟨c, hc, rfl, hcolumn⟩
      have hkeys : (TableElement.column c).referrals.flatMap Referral.keys = referencesOf c := by
        rw [referencesOf_eq]
        simp [TableElement.referrals, TableElement.constraints, hc, List.flatMap_map, ← foreignKeys_eq_keys]
      cases hs
      rw [hkeyed, hkeys]
      simp [TableElement.indexes, TableElement.listed, TableElement.constraints]

/-- What all elements add, each in its turn. -/
theorem foldlM_add {d : Dialect} {s s' : Draft} {es : List TableElement} (h : es.foldlM (add d) s = .ok s') :
    s' = {
      table := { s.table with
        columns := (es.filterMap (keyed? d)).foldl (fun cs x => cs.put x.1 x.2) s.table.columns
        indexes := s.table.indexes ++ es.flatMap (TableElement.indexes s.table.name)
        foreignKeys := s.table.foreignKeys ++ (es.flatMap TableElement.referrals).flatMap Referral.keys }
      primaryKeys := s.primaryKeys ++ es.flatMap TableElement.listed } := by
  induction es generalizing s with
  | nil =>
    cases h
    simp
  | cons e es ih =>
    rw [List.foldlM_cons] at h
    obtain ⟨s₁, hs, hrest⟩ := exists_of_bind_eq_ok h
    rw [ih hrest, add_eq_ok hs]
    cases he : keyed? d e <;> simp [he]

/-- The columns that are listed, and no others, are marked. -/
theorem finish_eq {t : Table} (h : t.columns.keys.Nodup) (ks : List Text) :
    finish ⟨t, ks⟩ = { t with columns := t.columns.map fun x =>
      (x.1, { x.2 with primaryKey := x.2.primaryKey || decide (x.1 ∈ ks) }) } := by
  unfold finish
  dsimp only
  congr 1
  generalize t.columns = cs at h ⊢
  induction ks generalizing cs with
  | nil => simp
  | cons k ks ih =>
    have hkeys : (cs.modify k fun c => { c with primaryKey := true }).keys.Nodup := by
      rw [Keyed.keys_modify]
      exact h
    rw [List.foldl_cons, ih _ hkeys, Keyed.modify_eq_map h, List.map_map]
    refine List.map_congr_left fun x _ => ?_
    by_cases hx : x.1 = k <;> simp [hx]

end Draft

/-- The table of a definition whose columns can all be named. -/
theorem ofCreate_eq_ok {d : Dialect} {c : CreateTable} {t : Table} (h : Table.ofCreate d c = .ok (some t)) :
    t = {
      name := c.name
      columns := (Keyed.ofList (c.elements.filterMap (keyed? d))).map fun x =>
        (x.1, { x.2 with primaryKey := x.2.primaryKey || decide (x.1 ∈ c.elements.flatMap TableElement.listed) })
      indexes := c.elements.flatMap (TableElement.indexes c.name)
      foreignKeys := (c.elements.flatMap TableElement.referrals).flatMap Referral.keys } := by
  unfold Table.ofCreate at h
  split at h
  · cases h
  · obtain ⟨s, hs, hfinish⟩ := exists_of_bind_eq_ok h
    obtain rfl : s.finish = t := Option.some.inj (Except.ok.inj hfinish)
    obtain rfl := Draft.foldlM_add hs
    exact Draft.finish_eq (Keyed.nodup_keys_ofList (c.elements.filterMap (keyed? d))) _

theorem exists_ofCreate_some {d : Dialect} {c : CreateTable} :
    (∃ t, Table.ofCreate d c = .ok (some t)) ↔ c.name ≠ [] ∧ ∀ e ∈ c.elements, isTitledElement e = true := by
  have hname {o : Option Table} (h : Table.ofCreate d c = .ok o) : o.isSome = true ↔ c.name ≠ [] := by
    have hmap := congrArg Option.isSome (name_of_ofCreate h)
    rw [Option.isSome_map] at hmap
    rw [hmap]
    by_cases hn : c.name = [] <;> simp [hn]
  have htitled := exists_ofCreate (d := d) (c := c)
  rw [isTitledStatement, Bool.or_eq_true, List.isEmpty_iff, List.all_eq_true] at htitled
  constructor
  · rintro ⟨t, ht⟩
    have hne := (hname ht).mp rfl
    exact ⟨hne, (htitled.mp ⟨_, ht⟩).resolve_left hne⟩
  · rintro ⟨hne, hall⟩
    obtain ⟨o, ho⟩ := htitled.mpr (Or.inr hall)
    obtain ⟨t, rfl⟩ := Option.isSome_iff_exists.mp ((hname ho).mpr hne)
    exact ⟨t, ho⟩

/-- A definition with a name makes a table exactly if all its columns can be named. The columns are those that
its elements define, in the order in which their names come up first, each as its last definition has it; one
is a primary key if that definition says so or any constraint lists it, and nothing else that is said on the
table touches a column. Each column that refers to a table has one foreign key, with the column that stands
at its place in the target, and each index and each unique constraint with columns one name, all in the order
of the elements. -/
theorem ofCreate_reads (d : Dialect) (c : CreateTable) :
    ((∃ t, Table.ofCreate d c = .ok (some t)) ↔ c.name ≠ [] ∧ ∀ e ∈ c.elements, isTitledElement e = true) ∧
    ∀ t, Table.ofCreate d c = .ok (some t) →
      t.name = c.name ∧ t.columns.keys.Nodup ∧
      (∀ k, k ∈ t.columns.keys ↔ ∃ e ∈ c.elements, e.columnName? = some k) ∧
      (∃ positions : List Nat, positions.Pairwise (· < ·) ∧
        List.Forall₂ (FirstAt TableElement.columnName? id c.elements) positions t.columns.keys) ∧
      (∀ k column, (k, column) ∈ t.columns → ∃ before definition after own,
        c.elements = before ++ .column definition :: after ∧ definition.name = k ∧
        (∀ e ∈ after, e.columnName? ≠ some k) ∧ Column.ofDef d definition = .ok own ∧
        column = { own with primaryKey := column.primaryKey } ∧
        (column.primaryKey = true ↔ (∃ x ∈ definition.constraints, x.isPrimaryKey = true) ∨
          ∃ e ∈ c.elements, k ∈ e.listed)) ∧
      t.foreignKeys = (c.elements.flatMap TableElement.referrals).flatMap Referral.keys ∧
      t.foreignKeys.length = ((c.elements.flatMap TableElement.referrals).map (·.columns.length)).sum ∧
      t.indexes = c.elements.flatMap (TableElement.indexes c.name) := by
  refine ⟨exists_ofCreate_some, ?_⟩
  intro t ht
  have htitled := (exists_ofCreate_some.mp ⟨t, ht⟩).2
  have hkey (e : TableElement) (he : e ∈ c.elements) : (keyed? d e).map Prod.fst = e.columnName? :=
    map_fst_keyed? (htitled e he)
  obtain rfl := ofCreate_eq_ok ht
  have hkeys : Keyed.keys ((Keyed.ofList (c.elements.filterMap (keyed? d))).map fun x => (x.1,
      { x.2 with primaryKey := x.2.primaryKey || decide (x.1 ∈ c.elements.flatMap TableElement.listed) })) =
      Keyed.keys (Keyed.ofList (c.elements.filterMap (keyed? d))) := List.map_map
  dsimp only
  rw [hkeys]
  refine ⟨rfl, Keyed.nodup_keys_ofList _, fun k => Keyed.mem_keys_ofList_filterMap hkey,
    Keyed.exists_positions_keys hkey, ?_, rfl, ?_, rfl⟩
  · intro k column hcolumn
    obtain ⟨⟨k', own⟩, hx, hmarked⟩ := List.mem_map.mp hcolumn
    obtain ⟨rfl, rfl⟩ := Prod.mk.inj hmarked
    obtain ⟨before, e, after, helements, he, hlast⟩ := Keyed.exists_last_of_mem_ofList hkey hx
    obtain ⟨definition, hdefinition, hname, hown⟩ := keyed?_eq_some.mp he
    obtain ⟨rfl, -⟩ := TableElement.column?_eq_some.mp hdefinition
    have hinline : own.primaryKey = definition.constraints.any ColumnConstraint.isPrimaryKey := by
      rw [Column.ofDef_eq] at hown
      obtain ⟨_, -, rfl⟩ := exists_of_map_eq_ok hown
      rfl
    refine ⟨before, definition, after, own, helements, hname, hlast, hown, rfl, ?_⟩
    rw [Bool.or_eq_true, hinline, List.any_eq_true, decide_eq_true_eq, List.mem_flatMap]
  · rw [List.length_flatMap]
    exact congrArg List.sum (List.map_congr_left fun r _ => length_keys r)

/-- A table with a column that refers to another table by `REFERENCES`, behind the keyword that a constraint on
the table would begin with. -/
def inlineForeignKey : Text := "CREATE TABLE t (a INT FOREIGN KEY REFERENCES u(id))"

/-- The only statement creates a table with the column `a`, and no foreign key. -/
def LosesKey (found : List (Option Statement)) : Prop :=
  ∃ c t, found = [some (.table c)] ∧ Table.ofCreate .mysql c = .ok (some t) ∧
    t.columns.keys = ["a"] ∧ t.foreignKeys = []

private def losesKey : List (Option Statement) → Bool
  | [some (.table c)] =>
    match Table.ofCreate .mysql c with
    | .ok (some t) => t.columns.keys = ["a"] && t.foreignKeys = []
    | _ => false
  | _ => false

private theorem losesKey_of_eq_true {found : List (Option Statement)} (h : losesKey found = true) :
    LosesKey found := by
  unfold losesKey at h
  split at h
  next c =>
    split at h
    next t ht =>
      rw [Bool.and_eq_true, decide_eq_true_eq, decide_eq_true_eq] at h
      exact ⟨c, t, rfl, ht, h.1, h.2⟩
    next => cases h
  next => cases h

private theorem inlineForeignKey_parsed : (Statement.parse .mysql inlineForeignKey).map losesKey = some true := by
  decide +kernel

/-- A column that refers to a table has no foreign key where `FOREIGN KEY` stands in front of the reference. -/
theorem inlineForeignKey_lost :
    ∃ found, Statement.parse .mysql inlineForeignKey = some found ∧ LosesKey found := by
  obtain ⟨found, hfound, h⟩ := Option.map_eq_some_iff.mp inlineForeignKey_parsed
  exact ⟨found, hfound, losesKey_of_eq_true h⟩

end CodeManifest.Schema
