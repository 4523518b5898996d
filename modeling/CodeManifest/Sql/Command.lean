import CodeManifest.Sql.Statement
import CodeManifest.Text.Blank
import CodeManifest.Text.LowerCase
import CodeManifest.Text.Word

namespace CodeManifest.Sql.Command

/-- The words of the statement. -/
def words (c : Command) : List Text := Text.words (c.head ++ ' ' :: c.rest.getD [])

/-- The statement on one line. -/
def text (c : Command) : Text := Text.join " " c.words

/-- The words that may stand between `CREATE` and what it creates. -/
def modifiers : List Text := [
  "temp", "temporary", "global", "local", "unlogged", "virtual", "unique", "clustered",
  "nonclustered", "fulltext", "spatial"]

/-- Is the word `p`, whatever its letter case? -/
def spells (p w : Text) : Bool := Text.dropFolded? p w = some []

/-- Does the word begin with `p`, whatever its letter case, and end there as a word? -/
def spellsStart (p w : Text) : Bool :=
  match Text.dropFolded? p w with
  | some [] => true
  | some (c :: _) => !Text.isWord c
  | none => false

/-- What is created: a table or an index, behind any number of modifiers. -/
def createsSchema : List Text → Bool
  | [] => false
  | [w] => spellsStart "table" w || spellsStart "index" w
  | w :: v :: ws =>
    if spells "or" w && spells "replace" v then createsSchema ws
    else if modifiers.any (spells · w) then createsSchema (v :: ws)
    else spellsStart "table" w || spellsStart "index" w

/-- Does the statement create a table or an index? -/
def isSchema (c : Command) : Bool :=
  match c.words with
  | w :: ws => spells "create" w && createsSchema ws
  | [] => false

end CodeManifest.Sql.Command
