import CodeManifest.Sql.Expr

namespace CodeManifest.Sql

/-- What a foreign key points at: a table and columns of it. -/
structure Reference where
  table : Text
  columns : List Text
  deriving DecidableEq, Repr

/-- A constraint on one column. -/
inductive ColumnConstraint where
  | notNull (allowNull : Bool)
  | primaryKey
  | autoIncrement
  /-- `GENERATED`; `expression` tells whether a value is computed, and not drawn from an identity. -/
  | generated (expression : Bool)
  | default (value : Expr)
  | references (target : Reference)
  | other

structure ColumnDef where
  name : Text
  type : Option DataType
  constraints : List ColumnConstraint

/-- A constraint on a table. Names that are not given are empty. -/
inductive TableConstraint where
  | primaryKey (columns : List Text)
  | foreignKey (columns : List Text) (target : Option Reference)
  | index (name : Text) (columns : List Text)
  | unique (name : Text) (columns : List Text)
  | other

inductive TableElement where
  | column (column : ColumnDef)
  | constraint (constraint : TableConstraint)
  | named (name : Text) (constraints : List TableConstraint)

structure CreateTable where
  name : Text
  elements : List TableElement
  /-- the names in front of its own: its schema, and the database of that -/
  qualifier : List Text := []

structure CreateIndex where
  table : Text
  name : Text
  columns : List Text
  /-- the names in front of that of the table -/
  qualifier : List Text := []
  deriving DecidableEq, Repr

/-- A statement that no grammar took apart: its first word and the text behind it. -/
structure Command where
  head : Text
  rest : Option Text
  deriving DecidableEq, Repr

inductive Statement where
  | table (create : CreateTable)
  | index (create : CreateIndex)
  | command (command : Command)
  | other

end CodeManifest.Sql
