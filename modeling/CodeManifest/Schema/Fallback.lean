import CodeManifest.Fault
import CodeManifest.Sql.Command
import CodeManifest.Sql.Read.Statement

namespace CodeManifest.Schema

open CodeManifest.Sql

/-- What a grammar makes of a text: its statements, where a blank one is `none`, or nothing at all if it
raises. -/
abbrev Grammar := Dialect → Text → Option (List (Option Statement))

/-- A text with the dialect that took it. No statement of it is blank. -/
structure Parsed where
  dialect : Dialect
  statements : List Statement

/-- Why a dialect does not take a text. -/
inductive Rejection where
  | syntaxError
  | unsupported (statement : Text)

/-- The definition of a table or an index that was kept as it stands. -/
def keptDefinition? : Statement → Option Command
  | .command c => if c.isSchema then some c else none
  | _ => none

/-- Reads a text in one dialect. -/
def accept (parse : Grammar) (d : Dialect) (t : Text) : Except Rejection Parsed :=
  match parse d t with
  | none => .error .syntaxError
  | some found =>
    let statements := found.filterMap id
    match statements.findSome? keptDefinition? with
    | some c => .error (.unsupported c.text)
    | none => .ok ⟨d, statements⟩

/-- The part of a definition that a message shows. -/
def shownLength : Nat := 80

/-- The message of a rejection, if it has one of its own. -/
def Rejection.message? : Rejection → Option Text
  | syntaxError => none
  | unsupported t => some ("Unsupported syntax: ".toList ++ t.take shownLength)

/-- The first dialect that takes the text, with those tried before it and why they do not. -/
def firstAccepting (parse : Grammar) (t : Text) :
    List Dialect → List (Dialect × Rejection) × Option Parsed
  | [] => ([], none)
  | d :: ds =>
    match accept parse d t with
    | .ok p => ([], some p)
    | .error r =>
      let (tried, found) := firstAccepting parse t ds
      ((d, r) :: tried, found)

/-- The fault of a text that no dialect takes. -/
def noDialect (tried : List Dialect) (file : Text) : Fault :=
  .inFile .schema ("no dialect matched (tried ".toList ++ Text.join ", " (tried.map Dialect.name) ++ [')']) file

/-- Reads a text in the first dialect that takes it. -/
def parseWithFallback (parse : Grammar) (ds : List Dialect) (t file : Text) : Except Fault Parsed :=
  match (firstAccepting parse t ds).2 with
  | some p => .ok p
  | none => .error (noDialect ds file)

/-- The dialects with the given names, of which there must be one. -/
def dialectsOf (names : List Text) : Except Fault (List Dialect) :=
  if names.isEmpty then .error (.configuration "At least one SQL dialect is required" [])
  else names.mapM fun n =>
    match Dialect.ofName? n with
    | some d => .ok d
    | none =>
      .error (.configuration ("Unknown SQL dialect: ".toList ++ n)
        [(.text "supported", Fault.texts Dialect.names)])

end CodeManifest.Schema
