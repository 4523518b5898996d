import CodeManifest.Text

namespace CodeManifest.Sql

inductive Dialect where
  | mysql
  | postgresql
  | sqlite
  | mssql
  deriving DecidableEq, Repr

namespace Dialect

/-- All dialects, in the order in which a file is tried when nothing else is asked for. -/
def all : List Dialect := [mysql, postgresql, sqlite, mssql]

theorem mem_all (d : Dialect) : d ∈ all := by cases d <;> decide

/-- The name a dialect has in a configuration and in a manifest. -/
def name : Dialect → Text
  | mysql => "mysql"
  | postgresql => "postgresql"
  | sqlite => "sqlite"
  | mssql => "mssql"

/-- The name of the grammar that reads the dialect. -/
def grammar : Dialect → Text
  | mysql => "mysql"
  | postgresql => "postgres"
  | sqlite => "sqlite"
  | mssql => "tsql"

def ofName? (t : Text) : Option Dialect := all.find? (·.name = t)

theorem ofName?_name (d : Dialect) : ofName? d.name = some d := by cases d <;> decide

theorem name_of_ofName? {t : Text} {d : Dialect} (h : ofName? t = some d) : d.name = t := by
  simpa using List.find?_some h

/-- The names of all dialects. -/
def names : List Text := all.map name

end Dialect

end CodeManifest.Sql
