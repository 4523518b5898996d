import CodeManifest.Text

namespace CodeManifest.Text

/-- A line ends at a line feed, a carriage return, both together, a vertical tab, a form feed,
a file, group or record separator, a next-line character, or a line or paragraph separator. -/
def isLineEnd (c : Char) : Bool :=
  let n := c.toNat
  (10 ≤ n && n ≤ 13) || (28 ≤ n && n ≤ 30) || n = 0x85 || n = 0x2028 || n = 0x2029

/-- The lines of a text without their ends. A line end at the very end opens no further line. -/
def lines : Text → List Text
  | [] => []
  | '\r' :: '\n' :: t => [] :: lines t
  | c :: t =>
    if isLineEnd c then [] :: lines t
    else match lines t with
      | [] => [[c]]
      | l :: ls => (c :: l) :: ls

end CodeManifest.Text
