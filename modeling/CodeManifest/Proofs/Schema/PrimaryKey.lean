import CodeManifest.Proofs.Schema.Definition

namespace CodeManifest.Sql

namespace TableConstraint

/-- The constraint, unless it lists a primary key. -/
def withoutKey : TableConstraint → TableConstraint
  | .primaryKey _ => .other
  | k => k

@[simp] theorem listed_withoutKey (k : TableConstraint) : k.withoutKey.listed = [] := by
  cases k <;> rfl

@[simp] theorem referral?_withoutKey (k : TableConstraint) : k.withoutKey.referral? = k.referral? := by
  cases k <;> rfl

@[simp] theorem index?_withoutKey (table name : Text) (k : TableConstraint) :
    k.withoutKey.index? table name = k.index? table name := by
  cases k <;> rfl

end TableConstraint

namespace TableElement

/-- The element without the primary keys that it lists. A column keeps its own. -/
def withoutKeys : TableElement → TableElement
  | .column c => .column c
  | .constraint k => .constraint k.withoutKey
  | .named name ks => .named name (ks.map TableConstraint.withoutKey)

@[simp] theorem column?_withoutKeys (e : TableElement) : e.withoutKeys.column? = e.column? := by
  cases e <;> rfl

theorem constraints_withoutKeys (e : TableElement) :
    e.withoutKeys.constraints = e.constraints.map fun k => (k.1, k.2.withoutKey) := by
  cases e with
  | named name ks => simp [withoutKeys, constraints]
  | _ => rfl

@[simp] theorem listed_withoutKeys (e : TableElement) : e.withoutKeys.listed = [] := by
  simp [listed, constraints_withoutKeys, List.flatMap_map]

@[simp] theorem referrals_withoutKeys (e : TableElement) : e.withoutKeys.referrals = e.referrals := by
  simp [referrals, constraints_withoutKeys, List.filterMap_map]

@[simp] theorem indexes_withoutKeys (table : Text) (e : TableElement) :
    e.withoutKeys.indexes table = e.indexes table := by
  simp [indexes, constraints_withoutKeys, List.filterMap_map]

end TableElement

namespace CreateTable

/-- The columns that the primary keys on the table list. -/
def listed (c : CreateTable) : List Text := c.elements.flatMap TableElement.listed

/-- A primary key on the table lists the column, in capital or small letters. -/
def Lists (c : CreateTable) (column : Text) : Prop := ∃ k ∈ c.listed, Text.lower k = Text.lower column

/-- The definition without the primary keys on the table. -/
def withoutKeys (c : CreateTable) : CreateTable := { c with elements := c.elements.map TableElement.withoutKeys }

theorem lists_of_mem {c : CreateTable} {column : Text} (h : column ∈ c.listed) : c.Lists column := ⟨column, h, rfl⟩

end CreateTable

end CodeManifest.Sql

namespace CodeManifest.Schema

open CodeManifest.Sql

@[simp] theorem keyed?_withoutKeys (d : Dialect) (e : TableElement) : keyed? d e.withoutKeys = keyed? d e := by
  simp [keyed?]

@[simp] theorem isTitledElement_withoutKeys (e : TableElement) :
    isTitledElement e.withoutKeys = isTitledElement e := by
  cases e <;> rfl

/-- The table with the columns marked whose names are among those given. -/
def Table.markKeys (names : List Text) (t : Table) : Table :=
  { t with columns := t.columns.map fun x =>
      (x.1, { x.2 with primaryKey := x.2.primaryKey || decide (x.1 ∈ names) }) }

/-- The keys on a table do nothing but mark columns. -/
theorem ofCreate_withoutKeys {d : Dialect} {c : CreateTable} {t : Table} (h : Table.ofCreate d c = .ok (some t)) :
    ∃ own, Table.ofCreate d c.withoutKeys = .ok (some own) ∧ t = own.markKeys c.listed := by
  have htitled : c.withoutKeys.name ≠ [] ∧ ∀ e ∈ c.withoutKeys.elements, isTitledElement e = true := by
    simpa [CreateTable.withoutKeys] using exists_ofCreate_some.mp ⟨t, h⟩
  obtain ⟨own, hown⟩ := (exists_ofCreate_some (d := d)).mpr htitled
  refine ⟨own, hown, ?_⟩
  rw [ofCreate_eq_ok h, ofCreate_eq_ok hown]
  simp [Table.markKeys, CreateTable.listed, CreateTable.withoutKeys, List.filterMap_map, List.flatMap_map]

/-- A definition with a name makes a table whenever all its columns can be named. The primary keys on the table mark
the columns whose names they list letter by letter, and change nothing else. So the columns that they list in capital
or small letters are all marked exactly if each is listed letter by letter or a key by its own definition. -/
theorem listed_columns_marked (d : Dialect) (c : CreateTable) :
    ((∃ t, Table.ofCreate d c = .ok (some t)) ↔ c.name ≠ [] ∧ ∀ e ∈ c.elements, isTitledElement e = true) ∧
    ∀ t, Table.ofCreate d c = .ok (some t) →
      ∃ own, Table.ofCreate d c.withoutKeys = .ok (some own) ∧ t = own.markKeys c.listed ∧
        (∀ x ∈ t.columns, x.1 ∈ c.listed → c.Lists x.1 ∧ x.2.primaryKey = true) ∧
        ((∀ x ∈ t.columns, c.Lists x.1 → x.2.primaryKey = true) ↔
          ∀ x ∈ own.columns, c.Lists x.1 → x.1 ∈ c.listed ∨ x.2.primaryKey = true) := by
  refine ⟨exists_ofCreate_some, fun t h => ?_⟩
  obtain ⟨own, hown, rfl⟩ := ofCreate_withoutKeys h
  refine ⟨own, hown, rfl, ?_, ?_⟩
  · intro x hx hlisted
    obtain ⟨y, -, rfl⟩ := List.mem_map.mp hx
    exact ⟨CreateTable.lists_of_mem hlisted, by simpa using Or.inr hlisted⟩
  · unfold Table.markKeys
    rw [List.forall_mem_map]
    simp only [Bool.or_eq_true, decide_eq_true_eq, or_comm]

/-- A table whose only column is listed as its primary key, in small letters. -/
def otherCase : Text := "CREATE TABLE t (ID INT, PRIMARY KEY (id))"

/-- The only statement creates a table whose only column is listed as its primary key and not marked. -/
def MissesKey (found : List (Option Statement)) : Prop :=
  ∃ c t column, found = [some (.table c)] ∧ Table.ofCreate .mysql c = .ok (some t) ∧
    t.columns = [(("ID" : Text), column)] ∧ c.Lists "ID" ∧ column.primaryKey = false

private def missesKey : List (Option Statement) → Bool
  | [some (.table c)] =>
    match Table.ofCreate .mysql c with
    | .ok (some ⟨_, [(name, column)], _, _⟩) => name = "ID" && c.listed = ["id"] && !column.primaryKey
    | _ => false
  | _ => false

private theorem missesKey_of_eq_true {found : List (Option Statement)} (h : missesKey found = true) :
    MissesKey found := by
  unfold missesKey at h
  split at h
  next c =>
    split at h
    next name column indexes foreignKeys ht =>
      simp only [Bool.and_eq_true, decide_eq_true_eq, Bool.not_eq_true'] at h
      obtain ⟨⟨rfl, hlisted⟩, hkey⟩ := h
      have hlists : c.Lists "ID" := by
        refine ⟨"id", ?_, by decide⟩
        rw [hlisted]
        exact List.mem_singleton_self _
      exact ⟨c, _, column, rfl, ht, rfl, hlists, hkey⟩
    next => cases h
  next => cases h

private theorem otherCase_parsed : (Statement.parse .mysql otherCase).map missesKey = some true := by
  decide +kernel

/-- A column that is listed in small letters only is not marked. -/
theorem otherCase_unmarked :
    ∃ found, Statement.parse .mysql otherCase = some found ∧ MissesKey found := by
  obtain ⟨found, hfound, h⟩ := Option.map_eq_some_iff.mp otherCase_parsed
  exact ⟨found, hfound, missesKey_of_eq_true h⟩

end CodeManifest.Schema
