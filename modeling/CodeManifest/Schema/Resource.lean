import CodeManifest.Calendar
import CodeManifest.Schema.Table

namespace CodeManifest.Schema

/-- A table as a resource of the project: where it was declared, in which dialect, and when its file
was last changed. -/
structure Resource where
  table : Table
  sourceFile : Text := []
  dialect : Text := []
  lastModified : Option Instant := none

end CodeManifest.Schema
