import CodeManifest.Keyed
import CodeManifest.Sql.Render
import CodeManifest.Sql.Statement
import CodeManifest.Value

namespace CodeManifest.Schema

open CodeManifest.Sql

/-- A column of a table. `default` is `null` where none is declared. -/
structure Column where
  type : Text
  nullable : Bool := true
  primaryKey : Bool := false
  autoIncrement : Bool := false
  default : Value := .null
  length : Option Nat := none
  deriving Inhabited

structure ForeignKey where
  column : Text
  table : Option Text := none
  target : Option Text := none
  deriving DecidableEq, Repr

/-- A table as one SQL file declares it. -/
structure Table where
  name : Text
  columns : Keyed Text Column := []
  indexes : List Text := []
  foreignKeys : List ForeignKey := []

/-- The declared name of an index; one that is not named goes by its table and columns. -/
def indexName (table : Text) (columns : List Text) (name : Text) : Text :=
  if name.isEmpty then table ++ ['_'] ++ Text.join "_" columns ++ "_idx".toList else name

/-- The value of a numeral: a whole number if it is made of digits, else a number with a point or an
exponent, else its text. -/
def numeral (t : Text) : Value :=
  if !t.isEmpty && t.all Text.isDigit && t.length ≤ Text.maxDigits then .int (Text.natOfDigits t)
  else match Double.ofNumeral? t with
    | some x => .float x
    | none => .text t

/-- The value of a default expression: of a literal its value, of anything else its text. -/
def defaultValue (d : Dialect) : Expr → Value
  | .null => .null
  | .paren e => defaultValue d e
  | .bool b => .bool b
  | .string t => .text t
  | .number t => numeral t
  | .neg (.number t) =>
    match numeral t with
    | .int n => .int (-n)
    | .float x => .float x.neg
    | _ => .text (Expr.render d (.neg (.number t)))
  | e => .text (e.render d)

/-- The length of a type is its first parameter, if that is a whole number. -/
def typeLength : Option DataType → Option Nat
  | some (.base _ (.number t :: _)) | some (.user _ (.number t :: _)) =>
    if !t.isEmpty && t.all Text.isDigit && t.length ≤ Text.maxDigits then some (Text.natOfDigits t)
    else none
  | _ => none

/-- The types whose values the database counts up by itself. -/
def isSerial : Option DataType → Bool
  | some (.base n _) => ["SERIAL", "BIGSERIAL", "SMALLSERIAL"].contains n
  | _ => false

/-- The foreign keys of columns that refer to a table, position by position. -/
def foreignKeys (columns : List Text) (target : Option Reference) : List ForeignKey :=
  match target with
  | none => columns.map fun c => { column := c }
  | some t =>
    let table := if t.table.isEmpty then none else some t.table
    let targets := t.columns.filter (! ·.isEmpty)
    columns.zipIdx.map fun (c, i) => ⟨c, table, targets[i]?⟩

/-- What one constraint says about its column. -/
def Column.constrain (d : Dialect) (c : Column) : ColumnConstraint → Column
  | .notNull allowNull => { c with nullable := allowNull }
  | .primaryKey => { c with primaryKey := true }
  | .autoIncrement | .generated _ => { c with autoIncrement := true }
  | .default e => { c with default := defaultValue d e }
  | .references _ | .other => c

/-- The column a definition declares. -/
def Column.ofDef (d : Dialect) (c : ColumnDef) : Except Untitled Column := do
  let base : Column := {
    type := ← match c.type with
      | some t => t.title d
      | none => pure "unknown".toList
    autoIncrement := isSerial c.type
    length := typeLength c.type }
  return c.constraints.foldl (Column.constrain d) base

/-- The foreign keys a column definition declares. -/
def referencesOf (c : ColumnDef) : List ForeignKey :=
  c.constraints.flatMap fun
    | .references t => foreignKeys [c.name] (some t)
    | _ => []

/-- A table in the making, with the columns that its primary keys list. -/
structure Draft where
  table : Table
  primaryKeys : List Text := []

namespace Draft

/-- What a constraint on the table says. A name given in front of it counts before its own. -/
def constrain (name : Text) (s : Draft) : TableConstraint → Draft
  | .primaryKey columns => { s with primaryKeys := s.primaryKeys ++ columns }
  | .foreignKey columns target =>
    { s with table.foreignKeys := s.table.foreignKeys ++ Schema.foreignKeys columns target }
  | .index own columns | .unique own columns =>
    let i := indexName s.table.name columns (if name.isEmpty then own else name)
    { s with table.indexes := s.table.indexes ++ [i] }
  | .other => s

/-- What one element of a definition says. A column without a name says nothing. -/
def add (d : Dialect) (s : Draft) : TableElement → Except Untitled Draft
  | .column c => do
    if c.name.isEmpty then return s
    let column ← Column.ofDef d c
    return { s with
      table.columns := s.table.columns.put c.name column
      table.foreignKeys := s.table.foreignKeys ++ referencesOf c }
  | .named name constraints => return constraints.foldl (constrain name) s
  | .constraint c => return constrain [] s c

/-- The table, with the columns of its primary keys marked. -/
def finish (s : Draft) : Table :=
  let mark := fun (cs : Keyed Text Column) k => cs.modify k fun c => { c with primaryKey := true }
  { s.table with columns := s.primaryKeys.foldl mark s.table.columns }

end Draft

/-- The table a statement creates, unless it has no name. -/
def Table.ofCreate (d : Dialect) (c : CreateTable) : Except Untitled (Option Table) := do
  if c.name.isEmpty then return none
  let s ← c.elements.foldlM (Draft.add d) { table := { name := c.name } }
  return some s.finish

/-- The table and the name of an index, if it has a table. -/
def indexTarget (i : CreateIndex) : Option (Text × Text) :=
  if i.table.isEmpty then none else some (i.table, indexName i.table i.columns i.name)

/-- The tables and the indexes on them that come up in the statements. A table created again
replaces the earlier one in its place; names differ only if they do so in small letters. -/
def collect (d : Dialect) : List Statement → Except Untitled (Keyed Text Table × List (Text × Text))
  | statements => statements.foldlM step ([], [])
where
  step (acc : Keyed Text Table × List (Text × Text)) :
      Statement → Except Untitled (Keyed Text Table × List (Text × Text))
    | .table c => do
      match ← Table.ofCreate d c with
      | some t => return (acc.1.put (Text.lower t.name) t, acc.2)
      | none => return acc
    | .index i => return (acc.1, acc.2 ++ (indexTarget i).toList)
    | .command _ | .other => return acc

/-- The table with one more index. -/
def Table.addIndex (i : Text) (t : Table) : Table := { t with indexes := t.indexes ++ [i] }

/-- The tables that the statements of a file leave. Indexes are added once all tables are known. -/
def tables (d : Dialect) (statements : List Statement) : Except Untitled (List Table) := do
  let (tables, indexes) ← collect d statements
  let indexed := indexes.foldl (fun ts (t, i) => ts.modify (Text.lower t) (Table.addIndex i)) tables
  return indexed.map Prod.snd

end CodeManifest.Schema
