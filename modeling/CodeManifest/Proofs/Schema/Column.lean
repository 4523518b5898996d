import CodeManifest.Proofs.Schema.Scan
import Mathlib

namespace CodeManifest.Sql.ColumnConstraint

/-- Whether the column may be null, if the constraint says so. -/
def nullable? : ColumnConstraint → Option Bool
  | .notNull allowNull => some allowNull
  | _ => none

def default? : ColumnConstraint → Option Expr
  | .default e => some e
  | _ => none

def target? : ColumnConstraint → Option Reference
  | .references t => some t
  | _ => none

def isPrimaryKey : ColumnConstraint → Bool
  | .primaryKey => true
  | _ => false

/-- Does the constraint mark the column as one whose values are counted up? -/
def countsUp : ColumnConstraint → Bool
  | .autoIncrement | .generated _ => true
  | _ => false

/-- Are the values drawn from an identity or a counter? -/
def isIdentity : ColumnConstraint → Bool
  | .autoIncrement | .generated false => true
  | _ => false

/-- Are the values computed from an expression? -/
def isComputed : ColumnConstraint → Bool
  | .generated true => true
  | _ => false

theorem countsUp_eq (k : ColumnConstraint) : k.countsUp = (k.isIdentity || k.isComputed) := by
  cases k with
  | generated expression => cases expression <;> rfl
  | _ => rfl

theorem any_countsUp (ks : List ColumnConstraint) : ks.any countsUp = (ks.any isIdentity || ks.any isComputed) := by
  rw [Bool.eq_iff_iff]
  simp only [Bool.or_eq_true, List.any_eq_true, countsUp_eq, and_or_left, exists_or]

/-- Does the constraint say anything on the column itself? -/
def describes : ColumnConstraint → Bool
  | .references _ | .other => false
  | _ => true

end CodeManifest.Sql.ColumnConstraint

namespace CodeManifest.Schema

open CodeManifest.Sql CodeManifest.Sql.ColumnConstraint

variable {α β : Type}

/-- A constraint touches each field by itself: two are overwritten, two are only ever set. -/
theorem Column.constrain_eq (d : Dialect) (c : Column) (k : ColumnConstraint) :
    c.constrain d k = { c with
      nullable := k.nullable?.getD c.nullable
      primaryKey := c.primaryKey || k.isPrimaryKey
      autoIncrement := c.autoIncrement || k.countsUp
      default := (k.default?.map (defaultValue d)).getD c.default } := by
  cases k <;> simp [constrain, nullable?, default?, isPrimaryKey, countsUp]

/-- Two values that overwrite each other may change places only if they are the same. -/
private theorem getD_comm {a b : Option α} (h : ∀ x y, a = some x → b = some y → x = y) (c : α) :
    b.getD (a.getD c) = a.getD (b.getD c) := by
  cases a with
  | none => rfl
  | some x =>
    cases b with
    | none => rfl
    | some y => exact (h x y rfl rfl).symm

/-- Constraints that do not overwrite each other may change places. -/
theorem Column.constrain_comm (d : Dialect) {k l : ColumnConstraint}
    (hnullable : ∀ x y, k.nullable? = some x → l.nullable? = some y → x = y)
    (hdefault : ∀ x y, k.default? = some x → l.default? = some y → x = y) (c : Column) :
    (c.constrain d k).constrain d l = (c.constrain d l).constrain d k := by
  have hvalue : ∀ x y, k.default?.map (defaultValue d) = some x →
      l.default?.map (defaultValue d) = some y → x = y := by
    intro x y hx hy
    obtain ⟨e, he, rfl⟩ := Option.map_eq_some_iff.mp hx
    obtain ⟨f, hf, rfl⟩ := Option.map_eq_some_iff.mp hy
    rw [hdefault e f he hf]
  simp only [constrain_eq, getD_comm hnullable, getD_comm hvalue, Bool.or_right_comm]

theorem Column.constrain_of_not_describes (d : Dialect) (c : Column) {k : ColumnConstraint}
    (h : k.describes = false) : c.constrain d k = c := by
  cases k with
  | references t => rfl
  | other => rfl
  | _ => cases h

/-- The last item that gives something. -/
theorem getLast?_filterMap_cons (f : α → Option β) (a : α) (as : List α) :
    ((a :: as).filterMap f).getLast? = ((as.filterMap f).getLast?).or (f a) := by
  cases h : f a with
  | none => rw [List.filterMap_cons_none h, Option.or_none]
  | some b =>
    rw [List.filterMap_cons_some h, List.getLast?_cons]
    cases (as.filterMap f).getLast? <;> rfl

/-- What all constraints leave: the last value of what is overwritten, and whether anything was set. -/
theorem Column.foldl_constrain (d : Dialect) (cs : List ColumnConstraint) (c : Column) :
    cs.foldl (constrain d) c = { c with
      nullable := (cs.filterMap nullable?).getLast?.getD c.nullable
      primaryKey := c.primaryKey || cs.any isPrimaryKey
      autoIncrement := c.autoIncrement || cs.any countsUp
      default := ((cs.filterMap default?).getLast?.map (defaultValue d)).getD c.default } := by
  induction cs generalizing c with
  | nil => simp
  | cons k cs ih =>
    rw [List.foldl_cons, ih, constrain_eq]
    simp only [getLast?_filterMap_cons, Option.map_or, Option.getD_or, List.any_cons, Bool.or_assoc]

/-- Where at most one item gives something, all that do are one. -/
private theorem eq_of_length_le_one {f : α → Option β} {as : List α} (h : (as.filterMap f).length ≤ 1)
    {a b : α} (ha : a ∈ as) (hb : b ∈ as) {x y : β} (hx : f a = some x) (hy : f b = some y) : x = y := by
  have hxs : x ∈ as.filterMap f := List.mem_filterMap.mpr ⟨a, ha, hx⟩
  have hys : y ∈ as.filterMap f := List.mem_filterMap.mpr ⟨b, hb, hy⟩
  obtain ⟨z, hz⟩ := List.length_eq_one_iff.mp (Nat.le_antisymm h (List.length_pos_of_mem hxs))
  rw [hz] at hxs hys
  rw [List.mem_singleton.mp hxs, List.mem_singleton.mp hys]

theorem Column.foldl_constrain_perm (d : Dialect) {cs cs' : List ColumnConstraint} (h : cs.Perm cs')
    (hnullable : (cs.filterMap nullable?).length ≤ 1) (hdefault : (cs.filterMap default?).length ≤ 1)
    (c : Column) : cs.foldl (constrain d) c = cs'.foldl (constrain d) c := by
  refine h.foldl_eq' (fun k hk l hl c => ?_) c
  exact constrain_comm d (fun _ _ => eq_of_length_le_one hnullable hk hl)
    (fun _ _ => eq_of_length_le_one hdefault hk hl) c

theorem Column.foldl_constrain_filter (d : Dialect) (cs : List ColumnConstraint) (c : Column) :
    (cs.filter describes).foldl (constrain d) c = cs.foldl (constrain d) c := by
  induction cs generalizing c with
  | nil => rfl
  | cons k cs ih =>
    rw [List.foldl_cons]
    by_cases hk : k.describes = true
    · rw [List.filter_cons_of_pos hk, List.foldl_cons, ih]
    · rw [List.filter_cons_of_neg hk, ih, constrain_of_not_describes d c (Bool.not_eq_true _ ▸ hk)]

theorem Column.ofDef_congr (d : Dialect) (name : Text) (type : Option DataType)
    {cs cs' : List ColumnConstraint}
    (h : ∀ c : Column, cs.foldl (constrain d) c = cs'.foldl (constrain d) c) :
    ofDef d ⟨name, type, cs⟩ = ofDef d ⟨name, type, cs'⟩ := by
  simp only [ofDef, h]

/-- The column of a definition, whose type alone tells whether there is one. -/
theorem Column.ofDef_eq (d : Dialect) (c : ColumnDef) :
    ofDef d c = (c.type.elim (.ok "unknown".toList) (·.title d)).map fun type => {
      type := type
      nullable := (c.constraints.filterMap nullable?).getLast?.getD true
      primaryKey := c.constraints.any isPrimaryKey
      autoIncrement := isSerial c.type || c.constraints.any countsUp
      default := ((c.constraints.filterMap default?).getLast?.map (defaultValue d)).getD .null
      length := typeLength c.type } := by
  unfold ofDef
  simp only [foldl_constrain, Bool.false_or]
  cases c.type with
  | none => rfl
  | some t =>
    cases h : t.title d with
    | error u => simp [h]; rfl
    | ok type => simp [h]; rfl

theorem referencesOf_eq (c : ColumnDef) :
    referencesOf c = (c.constraints.filterMap target?).flatMap fun t => foreignKeys [c.name] (some t) := by
  unfold referencesOf
  induction c.constraints with
  | nil => rfl
  | cons k cs ih =>
    rw [List.flatMap_cons, ih]
    cases k <;> rfl

/-- A column is the same in whatever order its constraints stand, as long as at most one of them is on null
values and at most one gives a default; its foreign keys are those of its references one after the other. In
any list of constraints the last one on null values and the last default count, nothing takes back that the
column is a primary key or counts up, and those that say nothing on the column itself change nothing. -/
theorem constraints_commute (d : Dialect) (name : Text) (type : Option DataType) :
    let column cs := Column.ofDef d ⟨name, type, cs⟩
    (∀ cs cs' : List ColumnConstraint, cs.Perm cs' → (cs.filterMap nullable?).length ≤ 1 →
      (cs.filterMap default?).length ≤ 1 → column cs = column cs') ∧
    (∀ cs, referencesOf ⟨name, type, cs⟩ =
      (cs.filterMap target?).flatMap fun t => foreignKeys [name] (some t)) ∧
    (∀ cs, (∃ c, column cs = .ok c) ↔ type.all isTitled = true) ∧
    (∀ cs c, column cs = .ok c →
      c.nullable = (cs.filterMap nullable?).getLast?.getD true ∧
      c.default = ((cs.filterMap default?).getLast?.map (defaultValue d)).getD .null ∧
      (c.primaryKey = true ↔ ∃ k ∈ cs, k.isPrimaryKey = true) ∧
      (c.autoIncrement = true ↔ isSerial type = true ∨ ∃ k ∈ cs, k.countsUp = true)) ∧
    (∀ cs cs' c c', column cs = .ok c → column cs' = .ok c' → cs ⊆ cs' →
      (c.primaryKey = true → c'.primaryKey = true) ∧
      (c.autoIncrement = true → c'.autoIncrement = true)) ∧
    ∀ cs, column (cs.filter describes) = column cs := by
  intro column
  have hset {cs : List ColumnConstraint} {c : Column} (h : column cs = .ok c) :
      c.nullable = (cs.filterMap nullable?).getLast?.getD true ∧
      c.default = ((cs.filterMap default?).getLast?.map (defaultValue d)).getD .null ∧
      (c.primaryKey = true ↔ ∃ k ∈ cs, k.isPrimaryKey = true) ∧
      (c.autoIncrement = true ↔ isSerial type = true ∨ ∃ k ∈ cs, k.countsUp = true) := by
    have hmap := (Column.ofDef_eq d ⟨name, type, cs⟩).symm.trans h
    obtain ⟨t, -, rfl⟩ := exists_of_map_eq_ok hmap
    exact ⟨rfl, rfl, by rw [List.any_eq_true], by rw [Bool.or_eq_true, List.any_eq_true]⟩
  refine ⟨?_, fun cs => referencesOf_eq _, fun cs => exists_ofDef, fun cs c => hset, ?_, ?_⟩
  · intro cs cs' hperm hnullable hdefault
    exact Column.ofDef_congr d name type (Column.foldl_constrain_perm d hperm hnullable hdefault)
  · intro cs cs' c c' hc hc' hsub
    obtain ⟨-, -, hkey, hcounts⟩ := hset hc
    obtain ⟨-, -, hkey', hcounts'⟩ := hset hc'
    rw [hkey, hkey', hcounts, hcounts']
    refine ⟨fun ⟨k, hk, h⟩ => ⟨k, hsub hk, h⟩, ?_⟩
    rintro (h | ⟨k, hk, h⟩)
    · exact Or.inl h
    · exact Or.inr ⟨k, hsub hk, h⟩
  · intro cs
    exact Column.ofDef_congr d name type (Column.foldl_constrain_filter d cs)

/-- The database gives the column its values: by its type, or by a constraint that draws them from an identity or a
counter. -/
def CountsUp (c : ColumnDef) : Prop := isSerial c.type = true ∨ ∃ k ∈ c.constraints, k.isIdentity = true

/-- The definition without the constraints that compute its values. -/
def withoutComputed (c : ColumnDef) : ColumnDef :=
  { c with constraints := c.constraints.filter fun k => !k.isComputed }

theorem isComputed_eq_true {k : ColumnConstraint} : k.isComputed = true ↔ k = .generated true := by
  cases k with
  | generated expression => cases expression <;> simp [isComputed]
  | _ => simp [isComputed]

/-- Where a computed value says nothing, it may be left out. -/
theorem filterMap_withoutComputed {f : ColumnConstraint → Option β} (h : f (.generated true) = none) (c : ColumnDef) :
    (withoutComputed c).constraints.filterMap f = c.constraints.filterMap f := by
  unfold withoutComputed
  rw [List.filterMap_filter]
  refine List.filterMap_congr fun k _ => ?_
  by_cases hk : k.isComputed = true
  · rw [isComputed_eq_true.mp hk, h]
    rfl
  · rw [if_pos (by simpa using hk)]

theorem any_isPrimaryKey_withoutComputed (c : ColumnDef) :
    (withoutComputed c).constraints.any isPrimaryKey = c.constraints.any isPrimaryKey := by
  unfold withoutComputed
  rw [List.any_filter]
  refine congrArg c.constraints.any (funext fun k => ?_)
  cases k with
  | generated expression => simp [isPrimaryKey]
  | _ => rfl

/-- What is counted up besides computed values is drawn from an identity. -/
theorem any_countsUp_withoutComputed (c : ColumnDef) :
    (withoutComputed c).constraints.any countsUp = c.constraints.any isIdentity := by
  unfold withoutComputed
  rw [List.any_filter]
  refine congrArg c.constraints.any (funext fun k => ?_)
  cases k with
  | generated expression => cases expression <;> rfl
  | _ => rfl

/-- The column of a definition without its computed values differs in one mark at most. -/
theorem ofDef_withoutComputed {d : Dialect} {c : ColumnDef} {column : Column} (h : Column.ofDef d c = .ok column) :
    Column.ofDef d (withoutComputed c) =
      .ok { column with autoIncrement := isSerial c.type || c.constraints.any isIdentity } := by
  rw [Column.ofDef_eq] at h ⊢
  rw [filterMap_withoutComputed rfl, filterMap_withoutComputed rfl, any_isPrimaryKey_withoutComputed,
    any_countsUp_withoutComputed]
  obtain ⟨t, ht, rfl⟩ := exists_of_map_eq_ok h
  have htype : (withoutComputed c).type = c.type := rfl
  rw [htype, ht]
  rfl

theorem countsUp_iff {c : ColumnDef} : CountsUp c ↔ (isSerial c.type || c.constraints.any isIdentity) = true := by
  rw [Bool.or_eq_true, List.any_eq_true]
  rfl

/-- There is a column whenever its type can be named. It is marked as counted up exactly if the database counts it up
or a constraint computes its values. Computed values set that mark and nothing else, so the mark is right unless the
values are computed and not counted up. -/
theorem autoIncrement_exact (d : Dialect) (c : ColumnDef) :
    ((∃ column, Column.ofDef d c = .ok column) ↔ c.type.all isTitled = true) ∧
    ∀ column, Column.ofDef d c = .ok column →
      (column.autoIncrement = true ↔ CountsUp c ∨ ∃ k ∈ c.constraints, k.isComputed = true) ∧
      ((column.autoIncrement = true ↔ CountsUp c) ↔ ((∃ k ∈ c.constraints, k.isComputed = true) → CountsUp c)) ∧
      ∃ plain, Column.ofDef d (withoutComputed c) = .ok plain ∧ (plain.autoIncrement = true ↔ CountsUp c) ∧
        column = { plain with autoIncrement := column.autoIncrement } := by
  refine ⟨exists_ofDef, fun column h => ?_⟩
  have hmark : column.autoIncrement = true ↔ CountsUp c ∨ ∃ k ∈ c.constraints, k.isComputed = true := by
    have hmap := (Column.ofDef_eq d c).symm.trans h
    obtain ⟨t, -, rfl⟩ := exists_of_map_eq_ok hmap
    rw [Bool.or_eq_true, any_countsUp, Bool.or_eq_true, List.any_eq_true, List.any_eq_true, ← or_assoc]
    rfl
  refine ⟨hmark, ?_, _, ofDef_withoutComputed h, countsUp_iff.symm, rfl⟩
  rw [hmark]
  constructor
  · exact fun hexact hcomputed => hexact.mp (Or.inr hcomputed)
  · exact fun hcounts => ⟨fun h => h.elim id hcounts, Or.inl⟩

/-- A table with a column and its double. -/
def doubledColumn : Text := "CREATE TABLE t (a INT, b INT GENERATED ALWAYS AS (a * 2))"

/-- The only statement creates a table with two columns. The second is computed, neither its type nor a constraint
counts it up, and it is marked so all the same. -/
def CountsComputed (found : List (Option Statement)) : Prop :=
  ∃ c a b column, found = [some (.table c)] ∧ c.elements = [.column a, .column b] ∧
    b.constraints = [.generated true] ∧ ¬ CountsUp b ∧ Column.ofDef .mysql b = .ok column ∧
    column.autoIncrement = true

private def countsComputed : List (Option Statement) → Bool
  | [some (.table ⟨_, [.column _, .column b], _⟩)] =>
    match b.constraints, Column.ofDef .mysql b with
    | [.generated true], .ok column => !isSerial b.type && column.autoIncrement
    | _, _ => false
  | _ => false

private theorem countsComputed_of_eq_true {found : List (Option Statement)} (h : countsComputed found = true) :
    CountsComputed found := by
  unfold countsComputed at h
  split at h
  next name a b qualifier =>
    split at h
    next column hconstraints hcolumn =>
      rw [Bool.and_eq_true, Bool.not_eq_true'] at h
      refine ⟨_, a, b, column, rfl, rfl, hconstraints, ?_, hcolumn, h.2⟩
      rw [countsUp_iff, hconstraints, h.1]
      decide
    next => cases h
  next => cases h

private theorem doubledColumn_parsed : (Statement.parse .mysql doubledColumn).map countsComputed = some true := by
  decide +kernel

/-- A column that is computed from another one is marked as counted up. -/
theorem computed_counted :
    ∃ found, Statement.parse .mysql doubledColumn = some found ∧ CountsComputed found := by
  obtain ⟨found, hfound, h⟩ := Option.map_eq_some_iff.mp doubledColumn_parsed
  exact ⟨found, hfound, countsComputed_of_eq_true h⟩

end CodeManifest.Schema
