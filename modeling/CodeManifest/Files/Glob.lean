import CodeManifest.Text

namespace CodeManifest.Files

/-- A part of a pattern. -/
inductive Piece where
  | any
  | one
  | literal (c : Char)
  /-- one character that is, or is not, in one of the ranges -/
  | set (negated : Bool) (ranges : List (Char × Char))
  deriving DecidableEq, Repr

/-- A pattern of names. -/
abbrev Glob := List Piece

namespace Glob

/-- The parts of a set between the hyphens that make ranges. The first `skip` characters of a part
are never such a hyphen; nothing behind the last hyphen makes it an ordinary character. -/
def cutRanges (skip : Nat) (t : Text) : List Text :=
  match _h : (t.drop skip).dropWhile (· ≠ '-') with
  | [] => [t]
  | _ :: rest =>
    let part := t.take skip ++ (t.drop skip).takeWhile (· ≠ '-')
    if rest.isEmpty then [part ++ ['-']] else part :: cutRanges 2 rest
termination_by t.length
decreasing_by
  have shorter := (List.dropWhile_sublist (fun c => decide (c ≠ '-')) (l := List.drop skip t)).length_le
  rw [_h] at shorter
  simp only [List.length_cons, List.length_drop] at shorter
  omega

/-- The parts without those ranges that have no character. Looked at from the last to the first, the
two ends of such a range are left out and its parts become one. -/
def dropEmptyRanges : List Text → List Text
  | [] => []
  | p :: ps =>
    match dropEmptyRanges ps with
    | [] => [p]
    | q :: qs =>
      match p.getLast?, q.head? with
      | some a, some b => if b < a then (p.dropLast ++ q.tail) :: qs else p :: q :: qs
      | _, _ => p :: q :: qs

/-- The ranges of the parts: from the end of each to the beginning of the next; all else stands for
itself, a hyphen with nothing in front of it too. -/
def rangesOf : List Text → List (Char × Char)
  | [] => []
  | [p] => p.map fun c => (c, c)
  | [] :: q :: ps => ('-', '-') :: rangesOf (q :: ps)
  | p :: q :: ps =>
    let between : List (Char × Char) := match p.getLast?, q.head? with
      | some a, some b => [(a, b)]
      | _, _ => []
    p.dropLast.map (fun c => (c, c)) ++ between ++ rangesOf (q.tail :: ps)
termination_by ps => ps.length

/-- The set that is written between brackets. Only what is left without the empty ranges says whether an
exclamation mark comes first. -/
def setOf (t : Text) : Piece :=
  match dropEmptyRanges (cutRanges (if t.head? = some '!' then 2 else 1) t) with
  | ('!' :: p) :: ps => .set true (rangesOf (p :: ps))
  | ps => .set false (rangesOf ps)

/-- The text up to the bracket that closes a set, and what is behind it. One right at the beginning
does not close it. -/
def closeSet? (t : Text) : Option (Text × Text) :=
  let mark := match t with
    | '!' :: ']' :: _ => 2
    | '!' :: _ => 1
    | ']' :: _ => 1
    | _ => 0
  let body := t.drop mark
  match body.dropWhile (· ≠ ']') with
  | [] => none
  | _ :: rest => some (t.take mark ++ body.takeWhile (· ≠ ']'), rest)

/-- Reads a pattern. A bracket that nothing closes stands for itself. `fuel` bounds its length. -/
def readFor : Nat → Text → Glob
  | 0, _ => []
  | _, [] => []
  | fuel + 1, c :: t =>
    if c = '*' then .any :: readFor fuel t
    else if c = '?' then .one :: readFor fuel t
    else if c = '[' then
      match closeSet? t with
      | some (body, rest) => setOf body :: readFor fuel rest
      | none => .literal '[' :: readFor fuel t
    else .literal c :: readFor fuel t

def ofText (t : Text) : Glob := readFor t.length t

/-- Does a part other than a star stand for the character? -/
def Piece.accepts (c : Char) : Piece → Bool
  | .any => false
  | .one => true
  | .literal x => x = c
  | .set negated ranges => (ranges.any fun r => r.1 ≤ c && c ≤ r.2) != negated

/-- The text and all that is left of it when characters are taken from its front. -/
def suffixes : Text → List Text
  | [] => [[]]
  | c :: t => (c :: t) :: suffixes t

/-- Does the pattern stand for the whole text? -/
def «matches» : Glob → Text → Bool
  | [], t => t.isEmpty
  | .any :: ps, t => (suffixes t).any («matches» ps)
  | _ :: _, [] => false
  | p :: ps, c :: t => Piece.accepts c p && «matches» ps t

end Glob

/-- Does a name fit a pattern? A pattern without wildcards fits itself alone. -/
def fits (pattern name : Text) : Bool := (Glob.ofText pattern).matches name

example : fits "*.test.*" "a.test.ts" = true ∧ fits "?.ts" "ab.ts" = false := by decide

end CodeManifest.Files
