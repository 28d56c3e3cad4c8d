import StepTrace.Config

/-!
Which commands there are, and which options and operands each of them takes.
-/
namespace StepTrace.Command

/-- What a value may be. -/
inductive ValueKind where
  | text
  /-- Any text but the empty one. -/
  | path
  | reporter
deriving DecidableEq, Repr, Inhabited

namespace ValueKind

def admits : ValueKind → String → Bool
  | text, _ => true
  | path, v => v ≠ ""
  | reporter, v => (Reporter.ofName? v).isSome

/-- The values of which one must be chosen, if they are few. -/
def choices : ValueKind → List String
  | reporter => [Reporter.pretty.name, Reporter.json.name]
  | _ => []

end ValueKind

structure Flag where
  name : String
  /-- The word that stands for its value in help texts, and what the value may be. -/
  value : Option (String × ValueKind) := none
  about : String := ""
  default : Option String := none
  /-- Whether it may be given more than once. -/
  repeats : Bool := false
  /-- Its place in help texts. -/
  place : Nat
deriving DecidableEq, Repr, Inhabited

structure Operand where
  name : String
  about : String
  default : Option String := none
deriving DecidableEq, Repr, Inhabited

def defaultConfig : String := "stepwise.toml"

def defaultEvents : String := "-"

/-- The options of the program as a whole. -/
def globalFlags : List Flag :=
  [ { name := "config", value := some ("CONFIG", .path), place := 0
      about := "Path to config file. Missing configs are treated as \"defaults\""
      default := some defaultConfig }
  , { name := "cwd", value := some ("CWD", .path), place := 1
      about := "Working directory for execution" }
  , { name := "log", value := some ("LOG", .text), place := 2
      about := "Log level", default := some "info" }
  , { name := "json", place := 3, about := "Machine-readable output to stdout (JSON)" } ]

inductive Name where
  | instrument
  | prelude
  | ingest
  | verify
  | version
  | usage
deriving DecidableEq, Repr, Inhabited

namespace Name

def all : List Name := [instrument, prelude, ingest, verify, version, usage]

def text : Name → String
  | instrument => "instrument"
  | prelude => "prelude"
  | ingest => "ingest"
  | verify => "verify"
  | version => "version"
  | usage => "usage"

def ofText? (s : String) : Option Name := all.find? fun n => n.text == s

def about : Name → String
  | instrument => "Instrument one source file, or every matching file under --root"
  | prelude => "Print or write the JavaScript runtime prelude"
  | ingest => "Turn a host event stream into the on-disk step store"
  | verify => "Check every case in the step store for contiguous numbering"
  | version => "Print version/build metadata"
  | usage => "Show a compact \"what to use when\" guide for each command, with examples"

def operand? : Name → Option Operand
  | instrument => some { name := "INPUT", about := "Single input file (omit with --root)" }
  | ingest =>
    some { name := "EVENTS", about := "NDJSON events file, or `-` for stdin", default := some defaultEvents }
  | _ => none

def flags : Name → List Flag
  | instrument =>
    [ { name := "root", value := some ("ROOT", .path), place := 0
        about := "Directory to instrument recursively" }
    , { name := "glob", value := some ("GLOBS", .text), place := 1, repeats := true
        about := "Glob patterns relative to --root (defaults to all JS/TS sources)" }
    , { name := "out", value := some ("OUT", .path), place := 2
        about := "Output file (single-file mode) or directory (required with --root)" }
    , { name := "file-id", value := some ("FILE_ID", .text), place := 3
        about := "File identifier embedded in recorder calls (single-file mode)" } ]
  | prelude => [{ name := "out", value := some ("OUT", .path), place := 0 }]
  | ingest =>
    [ { name := "store", value := some ("STORE", .path), place := 0
        about := "Store root (defaults to `store_dir` from config)" }
    , { name := "reporter", value := some ("REPORTER", .reporter), place := 1 } ]
  | verify =>
    [ { name := "store", value := some ("STORE", .path), place := 0 }
    , { name := "reporter", value := some ("REPORTER", .reporter), place := 1 } ]
  | version => []
  | usage => []

end Name

/-- The command that tells of the others. -/
def helpName : String := "help"

def helpAbout : String := "Print this message or the help of the given subcommand(s)"

end StepTrace.Command
