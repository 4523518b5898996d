import CodeManifest.Keyed
import CodeManifest.Value

namespace CodeManifest.Project

/-- The identity of a project. Name, version and description are whatever its package file holds. -/
structure Metadata where
  name : Value
  version : Value := .text "unknown"
  description : Value := .text []
  dependencies : Keyed Text Value := []
  scripts : Keyed Text Value := []
  frameworks : List Text := []

/-- Frameworks with the packages that tell of them, in the order in which they are listed. -/
def frameworkPackages : List (Text × List Text) := [
  ("React", ["react"]), ("Vue", ["vue"]), ("Angular", ["angular", "@angular/core"]),
  ("Express", ["express"]), ("NestJS", ["nestjs", "@nestjs/core"]), ("Next.js", ["next"])]

/-- The frameworks one of whose packages is there. -/
def frameworksOf (isThere : Text → Bool) : List Text :=
  (frameworkPackages.filter fun e => e.2.any isThere).map Prod.fst

/-- Is a package among the dependencies? In a text its name must occur. -/
def isIn (package : Text) : Value → Bool
  | .map entries => entries.any fun e => e.1.isText package
  | .list items => items.any (Value.isText package)
  | .text t => Text.occursIn package t
  | _ => false

/-- The entries of an object under text keys; anything else has none. -/
def entriesOf : Option Value → List (Text × Value)
  | some (.map entries) => entries.map fun (k, v) => (k.toText, v)
  | _ => []

/-- A value that counts as present, or another. -/
def orElse (v : Option Value) (other : Value) : Value :=
  match v with
  | some v => if v.isTruthy then v else other
  | none => other

/-- What a package file says of the project in a directory called `directory`. -/
def Metadata.ofPackage (directory : Text) (package : Value) : Metadata :=
  let dependencies := Keyed.ofList
    (entriesOf (package.get? "dependencies") ++ entriesOf (package.get? "devDependencies"))
  { name := orElse (package.get? "name") (.text directory)
    version := orElse (package.get? "version") (.text "unknown")
    description := orElse (package.get? "description") (.text [])
    dependencies
    scripts := entriesOf (package.get? "scripts")
    frameworks := frameworksOf fun p => (Keyed.keys dependencies).contains p }

end CodeManifest.Project
