import CodeManifest.Text.LowerCase

namespace CodeManifest.Tool

/-- Why a function may not become a tool. -/
inductive Rejection where
  | isPrivate
  | testHelper
  | internalUtility
  | constructorLike
  | component
  deriving DecidableEq, Repr

namespace Rejection

def reason : Rejection → Text
  | isPrivate => "private"
  | testHelper => "test helper"
  | internalUtility => "internal utility"
  | constructorLike => "constructor-like"
  | component => "UI component"

/-- The first words of names that are left out, in small letters. -/
def openings : List (List Text × Rejection) := [
  (["test", "spec", "mock", "stub"], testHelper),
  (["helper", "util", "internal", "private"], internalUtility),
  (["constructor", "init"], constructorLike)]

/-- Does the name begin with one of the words, whatever their letter case? -/
def opensWith (ws : List Text) (name : Text) : Bool := ws.any fun w => (Text.dropFolded? w name).isSome

/-- Does the name begin with a capital of ASCII? -/
def isCapitalized (name : Text) : Bool := name.head?.any fun c => 'A' ≤ c && c ≤ 'Z'

/-- Why the function may not become a tool, if it may not. -/
def of? (name path : Text) : Option Rejection :=
  if name.head? = some '_' || name.head? = some '#' then some isPrivate
  else match openings.find? fun e => opensWith e.1 name with
    | some e => some e.2
    | none => if isCapitalized name && Text.occursIn "component" path then some component else none

end Rejection

/-- May a function of this name in this file become a tool? -/
def isEligible (name path : Text) : Bool := (Rejection.of? name path).isNone

end CodeManifest.Tool
