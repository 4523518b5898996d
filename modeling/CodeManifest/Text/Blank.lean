import CodeManifest.Text

namespace CodeManifest.Text

/-- The white space of Unicode together with the four ASCII separators `FS`, `GS`, `RS`, `US`. -/
def isBlank (c : Char) : Bool :=
  let n := c.toNat
  (9 ≤ n && n ≤ 13) || (28 ≤ n && n ≤ 32) || n = 0x85 || n = 0xA0 || n = 0x1680 ||
    (0x2000 ≤ n && n ≤ 0x200A) || n = 0x2028 || n = 0x2029 || n = 0x202F || n = 0x205F || n = 0x3000

def trimLeft (t : Text) : Text := t.dropWhile isBlank

def trimRight (t : Text) : Text := (t.reverse.dropWhile isBlank).reverse

def trim (t : Text) : Text := trimRight (trimLeft t)

/-- The maximal runs of characters that are not blank. -/
def words (t : Text) : List Text := (split isBlank t).filter (! ·.isEmpty)

/-- The words with one space between them. -/
def spaced (t : Text) : Text := join " " (words t)

/-- Each run of blanks as one space. -/
def squeeze : Text → Text
  | [] => []
  | c :: t =>
    if isBlank c then
      match squeeze t with
      | ' ' :: r => ' ' :: r
      | r => ' ' :: r
    else c :: squeeze t

end CodeManifest.Text
