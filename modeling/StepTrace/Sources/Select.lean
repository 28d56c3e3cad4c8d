import StepTrace.Failure
import StepTrace.Files.Disk
import StepTrace.Files.Glob
import StepTrace.Script.Dialect

/-!
The source files of a project: which there are below a directory, what they are called in steps, in
which dialect they are written, and where their instrumented text goes.
-/
namespace StepTrace.Sources

/-- The patterns for source files if no others are given. -/
def defaultPatterns : List String :=
  ["**/*.js", "**/*.jsx", "**/*.mjs", "**/*.cjs", "**/*.ts", "**/*.tsx", "**/*.mts", "**/*.cts"]

/-- Directories of installed packages are left out. -/
def packageDir : String := "node_modules"

def readPatterns : List String → Except Failure (List Glob)
  | [] => .ok []
  | p :: r =>
    match Glob.ofText? p with
    | .error c => .error (.invalidArgument (Glob.message p c))
    | .ok g => (readPatterns r).map (g :: ·)

/-- The files below a path that match one of the patterns, each relative to it, in the order of their
components. -/
def find (d : Disk) (root : Path) (patterns : List String) : Except Failure (List Path) := do
  let globs ← readPatterns patterns
  match d.filesBelow root with
  | .error e => .error (.file e)
  | .ok files =>
    let taken := files.filter fun names =>
      !names.contains packageDir && globs.any (·.matchesPath (Path.ofNames names).text)
    return (taken.map Path.ofNames).mergeSort Path.le

/-- What a file is called in steps: its path with slashes. -/
def fileId (p : Path) : String := p.slashed

def dialectOf (p : Path) : Script.Dialect :=
  match p.extension? with
  | some "ts" | some "mts" | some "cts" => .typeScript
  | some "tsx" => .tsx
  | _ => .ecmaScript

/-- The extension of the text without types. -/
def plainExtension? : String → Option String
  | "ts" => some "js"
  | "tsx" => some "jsx"
  | "mts" => some "mjs"
  | "cts" => some "cjs"
  | _ => none

/-- Where the instrumented text of a file goes below a directory. -/
def outputPath (out p : Path) : Path :=
  match p.extension?.bind plainExtension? with
  | some e => out.join (p.withExtension e)
  | none => out.join p

end StepTrace.Sources
