import CodeManifest.Environment
import CodeManifest.Failure
import CodeManifest.Project.Config
import CodeManifest.Yaml

namespace CodeManifest.Project

open Files

/-- The name of the file. -/
def settingsName : Text := ".mcpgen.yaml"

/-- The settings of the project below a path. Without a file, and in an empty one, there are none. -/
def readSettings (d : Disk) (root : Path) : Except Failure Value := do
  let p := root.child settingsName
  if !d.isThere p then return .map []
  match Yaml.read (← d.readText p) with
  | .ok .null => return .map []
  | .ok (.map es) => return .map es
  | .ok _ => throw (.fault (.configuration (p.render ++ " must contain a mapping".toList) []))
  | .error .malformed => throw (.fault (.configuration ("Invalid YAML in ".toList ++ p.render) []))
  | .error e => throw (.defect e)

/-- The configuration of the project below a path. -/
def loadConfig (d : Disk) (root : Path) (e : Environment) (debug : Option Bool) :
    Except Failure Config := do
  let c ← Config.ofValue (← readSettings d root)
  return c.override e.wantsDebug debug

end CodeManifest.Project
