import CodeManifest.Source.Read.Expr

namespace CodeManifest.Source.Reader

variable (r : Deeper)

/-- What a class extends and implements. -/
def heritage : Reader Unit := do
  let _ ← optionally do
    keyword "extends"
    let _ ← operand r
    optionally (typeArguments r)
  let _ ← optionally do
    keyword "implements"
    commaSeparated comma r.type

/-- The words that stand in front of the name of a member. -/
def memberWords : List String := [
  "public", "private", "protected", "static", "override", "readonly", "abstract", "declare", "accessor",
  "async", "get", "set"]

def accessWords : List String := ["public", "private", "protected"]

/-- A word in front of the name of a member, as a node. At the end of a line the word is a member by
itself. -/
def memberModifier : Reader Node := do
  let n ← memberWord memberWords
  let c ← get
  require (!c.newline || c.rest.head? = some '*')
  return { n with kind := if accessWords.any (·.toList = n.text) then .accessibility else .token }

/-- Where a word may stand in front of the name of a method. Those with the greater number come
later; the words of fields and of methods without a body have none. -/
def methodRank? (w : Text) : Option Nat :=
  let at? (ws : List String) : Bool := ws.any (·.toList = w)
  if at? accessWords then some 0
  else if at? ["static"] then some 1
  else if at? ["override"] then some 2
  else if at? ["readonly"] then some 3
  else if at? ["async"] then some 4
  else if at? ["get", "set"] then some 5
  else none

/-- Is every word in its place in front of a method? -/
def inOrder : List Node → Bool
  | [] => true
  | [w] => (methodRank? w.text).isSome
  | v :: w :: ws =>
    match methodRank? v.text, methodRank? w.text with
    | some i, some j => i < j && inOrder (w :: ws)
    | _, _ => false

/-- The words that belong to a method; those before them fit nowhere. -/
def ownWords : List Node → List Node
  | [] => []
  | w :: ws => if inOrder (w :: ws) then w :: ws else ownWords ws

/-- A member of a class behind its decorators. A method without a body is none. -/
def classMember : Reader Node := placed none do
  if ← succeeds (do keyword "static"; require (← sees "\x7b"); block r) then
    return { kind := .other }
  let modifiers ← many memberModifier
  let star ← many (tokenNode (mark "*"))
  let name ← spanned (some .name) do return { kind := ← memberName }
  let _ ← optionally (mark "?")
  let sure ← succeeds (markNotBefore "!" (· = '='))
  if (← sees "(") || (← sees "<") then
    let s ← signature r
    if ← sees "\x7b" then
      block r
      let words := ownWords modifiers
      if sure || words.length < modifiers.length then damage
      return { kind := .method, children := words ++ star ++ [name] ++ s }
    else
      if !(← succeeds comma) then ending
      return { kind := .other }
  else
    let _ ← optionally (typeClause r)
    let _ ← optionally do
      mark "="
      r.expr
    if !(← succeeds comma) then ending
    return { kind := .other }

/-- A character that fits nowhere. -/
def stray : Reader Node := placed none do
  require (!(← atEnd))
  if !(← succeeds word) then modify (Cursor.token 1)
  damage
  return { kind := .error }

/-- The next node of the body of a class with the comments in front of it. What fits nowhere is
passed over word by word. -/
def classItem : Reader (List Node) := do
  let before ← ownComments
  require (!(← sees "\x7d"))
  require (!(← atEnd))
  let n ← tokenNode (mark ";") <|> decorator r <|> classMember r <|> stray
  return before ++ [n]

/-- The body of a class, whose closing brace may be missing at the end of the text. -/
def classBody : Reader Node := placed (some .body) do
  mark "\x7b"
  let items ← many (classItem r)
  closing "\x7d"
  return { kind := .classBody, children := items.flatten }

/-- A class behind its decorators. The words that may follow a name are no names here. -/
def classLike : Reader Shape := do
  let decorators ← many (decorator r)
  let abstract ← succeeds (keyword "abstract")
  keyword "class"
  let name ← optionally do
    require (!(← seesKeyword "implements"))
    spanned (some .name) do
      let _ ← Reader.name
      return { kind := .identifier }
  let _ ← optionally (typeParameters r)
  heritage r
  let body ← classBody r
  if !abstract then imply
  return {
    kind := if abstract then .abstractClass else .classDeclaration
    children := decorators ++ name.toList ++ [body] }

end CodeManifest.Source.Reader
