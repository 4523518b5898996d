import CodeManifest.Files.Change
import CodeManifest.Run
import Std.Time.DateTime.Timestamp

namespace CodeManifest.Main

open Files

/-- Where a link leads that leads to nothing: no file has such a name. -/
def nowhere : Text := ['/', '\x00']

/-- The time of a file's last change in microseconds. -/
def changed (info : IO.FS.Metadata) : Int :=
  info.modified.sec * 1000000 + (info.modified.nsec.toNat / 1000 : Nat)

/-- What really is in a directory under a name, if it can be read. With `deep`, everything below it
comes along. A link leads to where it really ends. -/
partial def load? (deep : Bool) (e : IO.FS.DirEntry) : IO (Option Entry) := do
  try
    let info ← e.path.symlinkMetadata
    match info.type with
    | .dir =>
      let inside ← if deep then e.path.readDir else pure #[]
      let es ← inside.toList.filterMapM fun f => do
        return (← load? deep f).map (f.fileName.toList, ·)
      return some (.directory es)
    | .symlink =>
      try return some (.link (← IO.FS.realPath e.path).toString.toList)
      catch _ => return some (.link nowhere)
    | _ => return some (.file (← IO.FS.readBinFile e.path) (changed info))
  catch _ => return none

/-- The disk with what really lies on the way along some names, as far as there is anything. With
`deep`, everything below the last of them comes along. -/
partial def reach (deep : Bool) (d : Disk) (above : Path) : List Text → IO Disk
  | [] => return d
  | n :: ns => do
    let p := above.child n
    let real : IO.FS.DirEntry := ⟨String.ofList above.render, String.ofList n⟩
    let found ← match d.root.at? p.parts with
      | some e => if deep && ns.isEmpty then load? true real else pure (some e)
      | none => load? (deep && ns.isEmpty) real
    match found with
    | none => return d
    | some e =>
      let d := { d with root := d.root.put p.parts e }
      match e with
      | .link target =>
        if target = nowhere then return d
        else reach deep d ⟨['/'], []⟩ ((Path.ofText target).parts ++ ns)
      | _ => reach deep d p ns

/-- Where the links in a tree lead. -/
partial def targets : Entry → List Path
  | .file _ _ => []
  | .link t => if t = nowhere then [] else [.ofText t]
  | .directory es => es.flatMap fun e => targets e.2

/-- Everything that a run with some words can look at: what is below the project, what its links lead
to, and what is on the way to a file that the words, the environment or the configuration name. -/
def snapshot (e : Environment) (words : List Text) : IO Disk := do
  let here := Path.ofText (← IO.currentDir).toString.toList
  let start : Path := ⟨['/'], []⟩
  let named := fun (t : Text) => (here.join (.ofText t)).normal.parts
  let mut d ← reach false { here } start here.parts
  match CommandLine.parse words with
  | .error _ => return ← reach false d start (named e.logFile)
  | .ok a =>
    d ← reach true d start (named a.root)
    d ← (targets d.root).foldlM (fun d p => reach false d start p.parts) d
    d ← reach false d start (named e.logFile)
    match d.resolved (.ofText a.root) with
    | .error _ => return d
    | .ok root =>
      match Project.loadConfig d root e none with
      | .error _ => return d
      | .ok c => reach false d start (Run.outputPath root c a.output).normal.parts

/-- Puts a change on the real disk. -/
def commit : Change → IO Unit
  | .directory place => IO.FS.createDirAll (String.ofList (Path.render ⟨['/'], place⟩))
  | .content place content => IO.FS.writeBinFile (String.ofList (Path.render ⟨['/'], place⟩)) content

/-- The time of day. -/
def now : IO Instant := do
  return { micros := (← Std.Time.Timestamp.now).toNanosecondsSinceUnixEpoch.toInt / 1000 }

def environment : IO Environment := do
  let debug ← IO.getEnv "MCPGEN_DEBUG"
  let logFile ← IO.getEnv "MCPGEN_LOG_FILE"
  return { debug := (debug.getD "").toList, logFile := (logFile.getD "").toList }

end CodeManifest.Main

open CodeManifest CodeManifest.Main in
/-- Runs the program on the arguments of the command line. -/
def main (args : List String) : IO UInt32 := do
  let words := args.map String.toList
  let e ← environment
  let disk ← snapshot e words
  let now ← now
  let (result, s) := (Run.main e words).run.run { disk, now }
  (Files.Entry.changes (some disk.root) [] s.disk.root).forM commit
  IO.print (String.ofList s.printed)
  s.shown.forM fun r => IO.eprint (String.ofList (r.line now))
  match result with
  | .ok code => return code.toUInt32
  | .error failure =>
    IO.eprintln (String.ofList failure.text)
    return 1
