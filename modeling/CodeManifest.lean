import CodeManifest.Calendar
import CodeManifest.CommandLine
import CodeManifest.Environment
import CodeManifest.Failure
import CodeManifest.Fault
import CodeManifest.Files.Change
import CodeManifest.Files.Disk
import CodeManifest.Files.Entry
import CodeManifest.Files.Glob
import CodeManifest.Files.Path
import CodeManifest.Json.Read
import CodeManifest.Json.Write
import CodeManifest.Keyed
import CodeManifest.Log
import CodeManifest.Log.Output
import CodeManifest.Main
import CodeManifest.Manifest
import CodeManifest.Number.Double
import CodeManifest.Pipeline
import CodeManifest.Project.Config
import CodeManifest.Project.Ignore
import CodeManifest.Project.Metadata
import CodeManifest.Project.Package
import CodeManifest.Project.Settings
import CodeManifest.Project.Walk
import CodeManifest.Proofs.Fresh
import CodeManifest.Proofs.Tool.Offer
import CodeManifest.Run
import CodeManifest.Schema.Fallback
import CodeManifest.Schema.Resource
import CodeManifest.Schema.Scan
import CodeManifest.Schema.Table
import CodeManifest.Source.DocComment
import CodeManifest.Source.Extract
import CodeManifest.Source.Language
import CodeManifest.Source.Node
import CodeManifest.Source.Parser
import CodeManifest.Source.Read
import CodeManifest.Source.Read.Class
import CodeManifest.Source.Read.Expr
import CodeManifest.Source.Read.Markup
import CodeManifest.Source.Read.Statement
import CodeManifest.Source.Read.Token
import CodeManifest.Source.Read.Type
import CodeManifest.Source.Symbol
import CodeManifest.Source.Tree
import CodeManifest.Sql.Command
import CodeManifest.Sql.Dialect
import CodeManifest.Sql.Expr
import CodeManifest.Sql.Function
import CodeManifest.Sql.Keyword
import CodeManifest.Sql.Read
import CodeManifest.Sql.Read.Expr
import CodeManifest.Sql.Read.Name
import CodeManifest.Sql.Read.Property
import CodeManifest.Sql.Read.Query
import CodeManifest.Sql.Read.Statement
import CodeManifest.Sql.Read.Table
import CodeManifest.Sql.Render
import CodeManifest.Sql.Statement
import CodeManifest.Sql.Token
import CodeManifest.Text
import CodeManifest.Text.Blank
import CodeManifest.Text.Cased
import CodeManifest.Text.Line
import CodeManifest.Text.LowerCase
import CodeManifest.Text.Order
import CodeManifest.Text.Point
import CodeManifest.Text.Printable
import CodeManifest.Text.Quoted
import CodeManifest.Text.Utf8
import CodeManifest.Text.Word
import CodeManifest.Tool.Category
import CodeManifest.Tool.Descriptor
import CodeManifest.Tool.Eligibility
import CodeManifest.Tool.Scan
import CodeManifest.Tool.TypeText
import CodeManifest.Tool.Verb
import CodeManifest.Value
import CodeManifest.Yaml
import CodeManifest.Yaml.Cursor
import CodeManifest.Yaml.Node
import CodeManifest.Yaml.Scalar
import CodeManifest.Yaml.Tag
import CodeManifest.Yaml.Token
import CodeManifest.Proofs.Tool.Compose
import CodeManifest.Proofs.Keyed
import CodeManifest.Proofs.Schema.Tables
import CodeManifest.Proofs.Schema.Fallback
import CodeManifest.Proofs.Pipeline
import CodeManifest.Proofs.Schema.Scan
import CodeManifest.Proofs.Tool.WellFormed
import CodeManifest.Proofs.Source.Candidates
import CodeManifest.Proofs.Files.Way
import CodeManifest.Proofs.Text.Order
import CodeManifest.Proofs.Project.Settings
import CodeManifest.Proofs.Project.Walk
import CodeManifest.Proofs.Json.Grammar
import CodeManifest.Proofs.Json.Numeral
import CodeManifest.Proofs.Json.Written
import CodeManifest.Proofs.Files.Keep
import CodeManifest.Proofs.Files.Names
import CodeManifest.Proofs.Files.Room
import CodeManifest.Proofs.Files.Written
import CodeManifest.Proofs.Run.Exec
import CodeManifest.Proofs.Run.Report
import CodeManifest.Proofs.Project.Alike
import CodeManifest.Proofs.Run.Course
import CodeManifest.Proofs.Run.Crash
import CodeManifest.Proofs.Run.Delivery
import CodeManifest.Proofs.Run.Again
import CodeManifest.Proofs.Run.Document
import CodeManifest.Proofs.Project.Usable
import CodeManifest.Proofs.Tool.Reuse
import CodeManifest.Proofs.Manifest
import CodeManifest.Proofs.Schema.Qualified
import CodeManifest.Proofs.Schema.Column
import CodeManifest.Proofs.Schema.Definition
import CodeManifest.Proofs.Tool.Generic
import CodeManifest.Proofs.Project.Excluded
import CodeManifest.Proofs.Tool.Qualifier
import CodeManifest.Proofs.Tool.LiteralUnion
import CodeManifest.Proofs.Tool.Kind
import CodeManifest.Proofs.Source.DocComment
import CodeManifest.Proofs.Text.Pieces
import CodeManifest.Proofs.Text.Spaced
import CodeManifest.Proofs.Tool.Verb
import CodeManifest.Proofs.Tool.Lookup
import CodeManifest.Proofs.Tool.Signature
import CodeManifest.Proofs.Source.TagLines
import CodeManifest.Proofs.Files.Within
import CodeManifest.Proofs.Tool.SameFile
import CodeManifest.Proofs.Source.Exported
import CodeManifest.Proofs.Schema.PrimaryKey
import CodeManifest.Proofs.CommandLine
import CodeManifest.Proofs.Sql.Command
import CodeManifest.Proofs.Calendar
import CodeManifest.Proofs.Text.Padded
import CodeManifest.Proofs.Timestamp
import CodeManifest.Proofs.Log.Logger
