import CodeManifest.Text

namespace CodeManifest.Text

inductive Point where
  | char (c : Char)
  /-- a half, by its place among all of them -/
  | half (place : Fin 0x800)
  deriving DecidableEq, Repr

namespace Point

def char? : Point → Option Char
  | char c => some c
  | half _ => none

/-- The number of a half as a unit of sixteen bits. -/
def unitOf (place : Fin 0x800) : Nat := 0xD800 + place

/-- A point where only characters can stand: a null character, which stands in no path, for a half. -/
def plain : Point → Char
  | char c => c
  | half _ => '\x00'

/-- What is seen of a point: a half has a mark in its place. -/
def shown : Point → Char
  | char c => c
  | half _ => '\uFFFD'

end Point

end CodeManifest.Text
