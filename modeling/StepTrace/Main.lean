import Std.Time.DateTime.Timestamp
import StepTrace.Command.Run
import StepTrace.Moment

/-!
The program. It takes what its task may touch from the file system, carries the task out, and puts back
what is new or changed.
-/
namespace StepTrace

/-- The path of a location from the top. -/
def Location.path (l : Location) : String := "/" ++ "/".intercalate l

/-- Where a path leads to from a location. -/
def Path.locate (p : Path) (here : Location) : Location :=
  p.components.foldl (fun l c =>
    match c with
    | .root => []
    | .current => l
    | .parent => l.dropLast
    | .name s => l ++ [s]) here

/-- Takes what is at a location. -/
def fetch (d : Disk) (l : Location) : IO Disk := do
  let place := (← IO.currentDir) / l.path
  if ← place.isDir then return d.put l .dir
  if ← place.pathExists then return d.put l (.file (← IO.FS.readBinFile place))
  return d

/-- Takes what is at a location and at those above it. -/
def fetchPath (d : Disk) (l : Location) : IO Disk :=
  (List.range (l.length + 1)).foldlM (fun d n => fetch d (l.take n)) d

/-- Takes what is at a location, above it and below it. -/
partial def fetchTree (d : Disk) (l : Location) : IO Disk := do
  let d ← fetchPath d l
  if d.entry? l != some .dir then return d
  let entries ← ((← IO.currentDir) / l.path).readDir
  entries.foldlM (fun d e => fetchTree d (l ++ [e.fileName])) d

/-- Puts back what is new or changed. -/
def deliver (old new : Disk) : IO Unit :=
  (old.changes new []).forM fun (path, content) => do
    match content with
    | none => IO.FS.createDirAll ("/" ++ path)
    | some bytes =>
      if let some above := Path.parent? ⟨"/" ++ path⟩ then IO.FS.createDirAll above.text
      IO.FS.writeBinFile ("/" ++ path) bytes

/-- Takes all that a task may touch. -/
def prepare (d : Disk) (globals : Command.Globals) (task : Command.Task) : IO Disk := do
  let home := ((globals.cwd.map (·.locate d.cwd)).getD d.cwd)
  let d ← fetchPath d home
  let d ← fetchPath d (globals.config.locate home)
  let config := Config.load { d with cwd := home } globals.config
  (task.paths config).foldlM (fun d p => fetchTree d (p.locate home)) d

partial def readAll (input : IO.FS.Stream) (bytes : ByteArray) : IO ByteArray := do
  let more ← input.read 65536
  if more.isEmpty then return bytes else readAll input (bytes ++ more)

def runProgram (args : List String) : IO UInt32 := do
  let args := Command.programName :: args
  let mut disk : Disk := { cwd := (Path.mk (← IO.currentDir).toString).locate [] }
  let mut input := ByteArray.empty
  if let .ok (.task globals task) := Command.request args then
    disk ← prepare disk globals task
    if task.readsInput then input ← readAll (← IO.getStdin) input
  let now : Moment := ⟨(← Std.Time.Timestamp.now).toNanosecondsSinceUnixEpoch.val.toNat⟩
  let (after, outcome) := Command.run ⟨disk, input.toList, now.milliseconds, now.text⟩ args
  deliver disk after
  (← IO.getStdout).putStr outcome.out
  (← IO.getStderr).putStr outcome.err
  return .ofNat outcome.code

end StepTrace

def main (args : List String) : IO UInt32 := StepTrace.runProgram args
