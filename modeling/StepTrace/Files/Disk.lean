import StepTrace.Failure
import StepTrace.Files.Path
import StepTrace.Keyed

/-!
Files and directories as a table of locations. A path leads to a location from the working directory or
from the top; on the way every component must be a directory that is there. Nothing is ever removed.
-/
namespace StepTrace

/-- The names from the top down to a file or directory. -/
abbrev Location := List String

inductive Entry where
  | file (bytes : ByteArray)
  | dir
deriving Inhabited

instance : DecidableEq Entry
  | .dir, .dir => isTrue rfl
  | .dir, .file _ | .file _, .dir => isFalse nofun
  | .file a, .file b =>
    if h : a.data = b.data then isTrue (congrArg Entry.file (ByteArray.ext h))
    else isFalse fun e => h (congrArg ByteArray.data (Entry.file.inj e))

structure Disk where
  entries : Keyed Location Entry := []
  cwd : Location := []
deriving Inhabited

namespace Disk

/-- What is at a location; the top is always a directory. -/
def entry? (d : Disk) (l : Location) : Option Entry :=
  if l = [] then some .dir else d.entries.get? l

def put (d : Disk) (l : Location) (e : Entry) : Disk := { d with entries := d.entries.put l e }

/-- A name has at most this many bytes. -/
def nameLimit : Nat := 255

/-- A path has fewer bytes than this. -/
def pathLimit : Nat := 4096

/-- One step on the way that a path leads. -/
def advance (d : Disk) (here : Location) (c : Path.Component) : Except FileFault Location :=
  match d.entry? here with
  | none => .error .notFound
  | some (.file _) => .error .notDirectory
  | some .dir =>
    match c with
    | .root => .ok []
    | .current => .ok here
    | .parent => .ok here.dropLast
    | .name s => if nameLimit < s.utf8ByteSize then .error .nameTooLong else .ok (here ++ [s])

/-- The location that a path leads to, whether something is there or not. -/
def resolve (d : Disk) (p : Path) : Except FileFault Location :=
  if p.text.toList.contains '\x00' then .error .nulInName
  else if p.text = "" then .error .notFound
  else if pathLimit ≤ p.text.utf8ByteSize then .error .nameTooLong
  else p.components.foldlM d.advance d.cwd

/-- What a path leads to. -/
def lookup (d : Disk) (p : Path) : Except FileFault Entry := do
  let l ← d.resolve p
  match d.entry? l with
  | none => .error .notFound
  | some (.file bytes) => if p.meansDirectory then .error .notDirectory else .ok (.file bytes)
  | some .dir => .ok .dir

def isDir (d : Disk) (p : Path) : Bool :=
  match d.lookup p with
  | .ok .dir => true
  | _ => false

def read (d : Disk) (p : Path) : Except FileFault ByteArray := do
  match ← d.lookup p with
  | .file bytes => return bytes
  | .dir => .error .isDirectory

def readText (d : Disk) (p : Path) : Except FileFault String := do
  match String.fromUTF8? (← d.read p) with
  | some s => return s
  | none => .error .notText

def createDir (d : Disk) (p : Path) : Except FileFault Disk := do
  let l ← d.resolve p
  if (d.entry? l).isSome then .error .alreadyExists else return d.put l .dir

/-- Creates the first of the paths; the others are those above it, and are created before it if they are
missing. What was created stays also if the whole fails. -/
def createDirs (d : Disk) : List Path → Disk × Except FileFault Unit
  | [] => (d, .error .noTree)
  | p :: above =>
    if p.text = "" then (d, .ok ())
    else
      match d.createDir p with
      | .ok d => (d, .ok ())
      | .error .notFound =>
        match createDirs d above with
        | (d, .error e) => (d, .error e)
        | (d, .ok ()) =>
          match d.createDir p with
          | .ok d => (d, .ok ())
          | .error e => (d, if d.isDir p then .ok () else .error e)
      | .error e => (d, if d.isDir p then .ok () else .error e)

/-- Creates a directory and those above it. -/
def createDirAll (d : Disk) (p : Path) : Disk × Except FileFault Unit := d.createDirs p.ancestors

/-- Writes a file, in the place of what it held. -/
def write (d : Disk) (p : Path) (bytes : ByteArray) : Except FileFault Disk := do
  let l ← d.resolve p
  match d.entry? l with
  | some .dir => .error .isDirectory
  | some (.file _) => if p.meansDirectory then .error .notDirectory else return d.put l (.file bytes)
  | none => if p.meansDirectory then .error .isDirectory else return d.put l (.file bytes)

/-- Writes a file that must not be there yet. -/
def createFile (d : Disk) (p : Path) (bytes : ByteArray) : Except FileFault Disk := do
  let l ← d.resolve p
  if (d.entry? l).isSome then .error .alreadyExists
  else if p.meansDirectory then .error .isDirectory
  else return d.put l (.file bytes)

def changeDir (d : Disk) (p : Path) : Except FileFault Disk := do
  let l ← d.resolve p
  match d.entry? l with
  | none => .error .notFound
  | some (.file _) => .error .notDirectory
  | some .dir => return { d with cwd := l }

/-- The names that lead from one location to another below it. -/
def under? : Location → Location → Option (List String)
  | [], l => some l
  | n :: top, m :: l => if n = m then under? top l else none
  | _ :: _, [] => none

/-- The files below a path, and at it, each by the names that lead to it from there. -/
def filesBelow (d : Disk) (p : Path) : Except FileFault (List (List String)) := do
  let _ ← d.lookup p
  let top ← d.resolve p
  return d.entries.filterMap fun (l, e) =>
    match e with
    | .file _ => under? top l
    | .dir => none

/-- Puts a file with the directories above it. -/
def deposit (d : Disk) (p : Path) (bytes : ByteArray) : Disk :=
  let d := (d.createDirs (p.ancestors.drop 1)).1
  match d.write p bytes with
  | .ok d => d
  | .error _ => d

/-- What is new or changed below a location since `old`: files, and new directories that hold nothing.
Each comes with its path from there; the path of a directory ends in a slash. -/
def changes (old d : Disk) (top : Location) : List (String × Option ByteArray) :=
  let found := d.entries.filterMap fun (l, e) =>
    match under? top l with
    | none => none
    | some names =>
      let path := "/".intercalate names
      match e with
      | .file bytes => if old.entry? l = some e then none else some (path, some bytes)
      | .dir =>
        let holds := d.entries.any fun (l', _) => l' ≠ l && (under? l l').isSome
        if (old.entry? l).isSome || holds then none else some (path ++ "/", none)
  found.mergeSort fun a b => !decide (b.1 < a.1)

end Disk
end StepTrace
