import CodeManifest.Keyed
import CodeManifest.Log
import CodeManifest.Source.Tree

namespace CodeManifest.Source

/-- What reads texts by a grammar. -/
structure Parser where
  grammar : Language
  deriving DecidableEq

def Parser.parse (p : Parser) (t : Text) : Node := Node.ofText p.grammar t

/-- Parsers, each under the name of its grammar. -/
structure Parsers where
  entries : Keyed Text Parser
  named : ∀ e ∈ entries, e.1 = e.2.grammar.name
  distinct : (Keyed.keys entries).Nodup

namespace Parsers

def empty : Parsers where
  entries := []
  named _ he := absurd he List.not_mem_nil
  distinct := List.nodup_nil

/-- The parsers with one more. -/
def add (ps : Parsers) (p : Parser) : Parsers where
  entries := ps.entries.put p.grammar.name p
  named e he := by
    rcases Keyed.mem_of_mem_put he with rfl | he
    · rfl
    · exact ps.named e he
  distinct := Keyed.nodup_keys_put p ps.distinct

/-- What comes of asking for a parser: the parsers afterwards, the reports, and the parser or why there is
none. -/
structure Answer where
  parsers : Parsers
  records : List Log.Record := []
  outcome : Except Fault Parser

/-- What the report of a grammar begins with. -/
def loadOpening : Text := "Loading tree-sitter grammar: "

/-- The report that a grammar is loaded. -/
def loading (name : Text) : Log.Record := ⟨"ast.parser", .debug, loadOpening ++ name⟩

/-- The parser for the grammar of a name. -/
def parserFor (ps : Parsers) (name : Text) : Answer :=
  match ps.entries.get? name with
  | some p => { parsers := ps, outcome := .ok p }
  | none =>
    match Language.ofName? name with
    | none => { parsers := ps, outcome := .error (Language.unknown name) }
    | some l =>
      { parsers := ps.add ⟨l⟩
        records := [loading name]
        outcome := .ok ⟨l⟩ }

end Parsers

end CodeManifest.Source
