import CodeManifest.Source.Read.Expr

namespace CodeManifest.Source.Reader

variable (r : Deeper)

/-- The name of an element or of an attribute; dashes, dots and colons are part of it. -/
def markupName : Reader Text := measured fun t =>
  match t with
  | c :: _ =>
    if Token.isNameStart c then
      some (t.takeWhile fun c => Token.isNamePart c || c = '-' || c = '.' || c = ':').length
    else none
  | [] => none

/-- The text of an attribute, in which nothing is an escape. -/
def attributeText : Reader Unit := do
  let _ ← measured fun
    | q :: t =>
      if q = '"' || q = '\'' then
        let inside := (t.takeWhile (· ≠ q)).length
        if inside < t.length then some (inside + 2) else none
      else none
    | [] => none

/-- An expression in braces, which may be missing, and which begins behind three dots if many are
meant. The closing brace is not taken. -/
def embedded : Reader Unit := do
  mark "\x7b"
  let _ ← optionally (mark "...")
  let _ ← optionally r.sequence
  require (← sees "\x7d")

/-- An attribute of an element, or many from an expression. -/
def markupAttribute : Reader Unit := do
  if ← sees "\x7b" then
    embedded r
    mark "\x7d"
  else
    let _ ← markupName
    let _ ← optionally do
      mark "="
      if ← succeeds attributeText then return ()
      if ← sees "\x7b" then
        embedded r
        mark "\x7d"
      else
        r.element
        endToken

/-- Text between elements. -/
def markupText : Reader Unit := do
  let c ← get
  let n := (c.rest.takeWhile fun x => !"<>\x7b\x7d".toList.contains x).length
  require (0 < n)
  set (c.drop n)

/-- Text, an expression or an element inside of an element. -/
def content : Reader Unit := do
  if ← succeeds markupText then return ()
  if ← sees "\x7b" then
    embedded r
    rawMark "\x7d"
  else
    require (!(← sees "</"))
    r.element

/-- An element, up to its last mark. -/
def element : Reader Unit := do
  mark "<"
  let name ← optionally markupName
  let _ ← optionally (typeArguments r)
  let _ ← many (markupAttribute r)
  if ← succeeds (do mark "/"; rawMark ">") then
    require name.isSome
  else
    rawMark ">"
    let _ ← many (content r)
    rawMark "<"
    endToken
    mark "/"
    let close ← optionally markupName
    require (close = name)
    rawMark ">"

end CodeManifest.Source.Reader
