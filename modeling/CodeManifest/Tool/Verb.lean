import CodeManifest.Text.Blank
import CodeManifest.Text.LowerCase
import CodeManifest.Text.Word

namespace CodeManifest.Tool

/-- What a function does, as far as its name tells. -/
inductive Verb where
  | fetch
  | create
  | update
  | delete
  | list
  | search
  | validate
  | authenticate
  deriving DecidableEq, Repr

namespace Verb

/-- The words a verb goes by, in small letters. -/
def openings : Verb → List Text
  | fetch => ["get", "fetch", "find", "retrieve", "load", "query"]
  | create => ["create", "add", "insert", "post"]
  | update => ["update", "edit", "modify", "patch", "put"]
  | delete => ["delete", "remove", "destroy"]
  | list => ["list", "getall"]
  | search => ["search", "filter"]
  | validate => ["validate", "check", "verify"]
  | authenticate => ["auth", "login", "logout", "register"]

/-- What follows the verb in a name that begins with it, whatever its letter case. -/
def after? (v : Verb) (name : Text) : Option Text := v.openings.findSome? (Text.dropFolded? · name)

def opens (v : Verb) (name : Text) : Bool := (v.after? name).isSome

/-- The verbs that make a sentence, in the order in which they are tried. -/
def described : List Verb := [fetch, create, update, delete, list, search, validate]

/-- The verb of a name with what follows it. -/
def find? (vs : List Verb) (name : Text) : Option (Verb × Text) :=
  vs.findSome? fun v => (v.after? name).map (v, ·)

/-- The sentence of a verb about a subject. `byId` tells whether the function is given an identity. -/
def sentence (subject : Text) (byId : Bool) : Verb → Text
  | fetch =>
    if byId then "Fetch a specific ".toList ++ subject ++ " by ID".toList
    else "Fetch ".toList ++ subject ++ " data".toList
  | create => "Create a new ".toList ++ subject ++ " record".toList
  | update => "Update an existing ".toList ++ subject ++ " record".toList
  | delete => "Delete a ".toList ++ subject ++ " record".toList
  | list => "List all ".toList ++ subject ++ " records".toList
  | search => "Search and filter ".toList ++ subject ++ " records".toList
  | validate => "Validate ".toList ++ subject ++ " data".toList
  | authenticate => "Authenticate ".toList ++ subject

end Verb

/-- Does a lookup qualifier make up all of the text: `By` with a capital, a digit or an underscore
behind it, and then word characters only? A line feed may end the text. -/
def isLookup (t : Text) : Bool :=
  match Text.dropStart? "By" t with
  | some (c :: r) =>
    (('A' ≤ c && c ≤ 'Z') || Text.isDigit c || c = '_') &&
      (r.dropWhile Text.isWord = [] || r.dropWhile Text.isWord = ['\n'])
  | _ => false

/-- The text without the first lookup qualifier that reaches to its end. -/
def dropLookup : Text → Text
  | [] => []
  | c :: t =>
    if isLookup (c :: t) then (if (c :: t).getLast? = some '\n' then ['\n'] else [])
    else c :: dropLookup t

/-- The subject of a name, in small letters: what follows its verb, without the qualifier that says
how it is looked up, unless nothing else is there. -/
def subject (rest : Text) : Text :=
  let short := dropLookup rest
  Text.lower (if short.isEmpty then rest else short)

/-- How many parameters a function has, with the text of that number. -/
structure ParameterCount where
  count : Int
  shown : Text

def ParameterCount.ofNat (n : Nat) : ParameterCount := ⟨n, Text.ofNat n⟩

/-- The sentence a function's name stands for. A name that begins with no verb is only told with the
number of parameters. -/
def describe (name : Text) (parameters : ParameterCount) (byId : Bool) : Text :=
  match Verb.find? Verb.described name with
  | some (v, rest) => Text.spaced (v.sentence (subject rest) byId)
  | none =>
    let tail : Text :=
      if parameters.count > 0 then " (".toList ++ parameters.shown ++ " parameters)".toList else []
    "Function: ".toList ++ name ++ tail

/-- Is the name of a parameter that of an identity? -/
def namesIdentity (parameter : Text) : Bool := Text.occursIn "id" (Text.lower parameter)

end CodeManifest.Tool
