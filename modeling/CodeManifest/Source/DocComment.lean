import CodeManifest.Keyed
import CodeManifest.Text.Blank
import CodeManifest.Text.Line
import CodeManifest.Text.Word

namespace CodeManifest.Source

/-- A documentation comment. Each tag has a text for every time it stands in the comment. -/
structure DocComment where
  description : Text := []
  examples : List Text := []
  tags : Keyed Text (List Text) := []
  deriving DecidableEq

namespace DocComment

/-- Is the comment meant as documentation? -/
def isDoc (t : Text) : Bool :=
  (Text.dropStart? "/**" t).isSome && (Text.dropStop? "*/" t).isSome && t.length > 4

/-- A line without the star in front of it. -/
def stripLine (l : Text) : Text :=
  let l := Text.trim l
  let l := match l with
    | '*' :: ' ' :: r => r
    | '*' :: r => r
    | r => r
  Text.trimRight l

/-- The name of the tag that begins a line, and what follows it. Tags begin with a small letter. -/
def tag? (l : Text) : Option (Text × Text) :=
  match Text.trim l with
  | '@' :: c :: t =>
    if 'a' ≤ c && c ≤ 'z' then
      let name := c :: t.takeWhile Text.isWord
      match t.dropWhile Text.isWord with
      | [] => some (name, [])
      | b :: r => if Text.isBlank b then some (name, Text.trimLeft r) else none
    else none
  | _ => none

/-- A section: its tag, if it has one, and its lines. -/
abbrev Section := Option Text × List Text

/-- The sections of a comment; the first has no tag. Read from the last line up, the lines that no
tag has claimed yet stand first. -/
def sections (lines : List Text) : List Section := lines.foldr step [(none, [])]
where
  step (l : Text) (acc : List Section) : List Section :=
    match acc, tag? l with
    | (none, rest) :: more, some (name, first) =>
      (none, []) :: (some name, (if first.isEmpty then [] else [first]) ++ rest) :: more
    | (none, rest) :: more, none => (none, l :: rest) :: more
    | acc, _ => acc

/-- The lines of a section as one text. -/
def body (lines : List Text) : Text := Text.trim (Text.join "\n" lines)

/-- One more text under a tag. -/
def addTag (tags : Keyed Text (List Text)) (name text : Text) : Keyed Text (List Text) :=
  tags.put name ((tags.get? name).getD [] ++ [text])

/-- The documentation in a comment, if it is meant as such. -/
def parse (t : Text) : Option DocComment :=
  let t := Text.trim t
  if !isDoc t then none
  else
    let inside := (t.drop 3).take (t.length - 5)
    let parts := sections ((Text.lines inside).map stripLine)
    let description := (parts.filter (·.1.isNone)).flatMap (·.2)
    let tags : Keyed Text (List Text) := parts.foldl (fun tags s => match s.1 with
      | some name => addTag tags name (body s.2)
      | none => tags) []
    some {
      description := body description
      examples := ((tags.get? "example".toList).getD []).filter (! ·.isEmpty)
      tags }

end DocComment

end CodeManifest.Source
