import CodeManifest.Tool.Verb

namespace CodeManifest.Tool

inductive Category where
  | api
  | utility
  | service
  | model
  | controller
  | middleware
  | access
  | creation
  | modification
  | deletion
  | validation
  | authentication
  | general
  deriving DecidableEq, Repr

namespace Category

def name : Category → Text
  | api => "api"
  | utility => "utility"
  | service => "service"
  | model => "model"
  | controller => "controller"
  | middleware => "middleware"
  | access => "data-access"
  | creation => "data-creation"
  | modification => "data-modification"
  | deletion => "data-deletion"
  | validation => "validation"
  | authentication => "authentication"
  | general => "general"

/-- Parts of a path and the categories they stand for, in the order in which they are tried. -/
def byPath : List (List Text × Category) := [
  (["/api/", "/routes/"], api), (["/utils/", "/helpers/"], utility), (["/services/"], service),
  (["/models/"], model), (["/controllers/"], controller), (["/middleware/"], middleware)]

/-- Verbs and the categories they stand for, in the order in which they are tried. -/
def byVerb : List (Verb × Category) := [
  (.fetch, access), (.create, creation), (.update, modification), (.delete, deletion),
  (.validate, validation), (.authenticate, authentication)]

/-- All categories. -/
def all : List Category := byPath.map Prod.snd ++ byVerb.map Prod.snd ++ [general]

theorem mem_all (c : Category) : c ∈ all := by cases c <;> decide

/-- The category of a function by its name and the path of its file. -/
def ofName (name path : Text) : Category :=
  let path := Text.mapChar '\\' '/' path
  match byPath.find? fun e => e.1.any (Text.occursIn · path) with
  | some e => e.2
  | none =>
    match byVerb.find? fun e => e.1.opens name with
    | some e => e.2
    | none => general

end Category

end CodeManifest.Tool
