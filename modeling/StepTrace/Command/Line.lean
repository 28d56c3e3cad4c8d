import StepTrace.Command.Help

/-!
Reading the arguments of the program, from left to right: options of the program, a command, and the
options and operands of that command.
-/
namespace StepTrace.Command

/-- Why arguments mean nothing. -/
inductive UsageFault where
  | unknownArgument (word : String)
  | unknownCommand (word : String)
  | missingCommand
  | missingValue (flag : String)
  | unneededValue (flag : String)
  | repeated (flag : String)
  | invalidValue (value : String)
  | missingArgument (name : String)
  | conflict (flag other : String)
deriving DecidableEq, Repr, Inhabited

namespace UsageFault

def message : UsageFault → String
  | unknownArgument w => "unexpected argument '" ++ w ++ "' found"
  | unknownCommand w => "unrecognized subcommand '" ++ w ++ "'"
  | missingCommand => "a subcommand is required but none was given"
  | missingValue f => "a value is required for '" ++ f ++ "' but none was supplied"
  | unneededValue f => "no value is allowed for '" ++ f ++ "'"
  | repeated f => "the argument '" ++ f ++ "' cannot be used multiple times"
  | invalidValue v => "invalid value '" ++ v ++ "'"
  | missingArgument n => "the argument '" ++ n ++ "' was not provided"
  | conflict f g => "the argument '" ++ f ++ "' cannot be used with '" ++ g ++ "'"

def text (f : UsageFault) : String :=
  "error: " ++ f.message ++ "\n\nFor more information, try '--help'.\n"

end UsageFault

/-- What an argument looks like. -/
inductive Word where
  /-- Two hyphens alone: no options follow. -/
  | stop
  | long (name : String) (value : Option String)
  | short (first : Char)
  | plain
deriving DecidableEq, Repr, Inhabited

def Word.ofText (s : String) : Word :=
  match s.toList with
  | ['-', '-'] => .stop
  | '-' :: '-' :: r =>
    let name := r.takeWhile (· ≠ '=')
    .long (String.ofList name) ((r.drop name.length).tail?.map String.ofList)
  | '-' :: c :: _ => .short c
  | _ => .plain

/-- Something that takes values. -/
structure Slot where
  name : String
  kind : ValueKind
  repeats : Bool
deriving DecidableEq, Repr, Inhabited

/-- What was given so far. A value is checked when the next option or operand comes, or at the end. -/
structure Given where
  values : Keyed String (List String) := []
  pending : Option (Slot × Option String) := none
deriving Repr, Inhabited

namespace Given

def value? (g : Given) (name : String) : Option String := (g.values.get? name).bind List.head?

def has (g : Given) (name : String) : Bool := (g.values.get? name).isSome

/-- Whether an option waits for its value. -/
def awaiting? (g : Given) : Option Slot :=
  match g.pending with
  | some (slot, none) => some slot
  | _ => none

/-- Adds a value to a slot. -/
def add (g : Given) (slot : Slot) (value : String) : Except UsageFault Given :=
  if g.has slot.name && !slot.repeats then .error (.repeated slot.name)
  else if slot.kind.admits value then
    .ok { g with values := g.values.put slot.name ((g.values.get? slot.name).getD [] ++ [value]) }
  else .error (.invalidValue value)

/-- Checks the value that is pending. -/
def settle (g : Given) : Except UsageFault Given :=
  match g.pending with
  | none => .ok g
  | some (slot, none) => .error (.missingValue slot.name)
  | some (slot, some v) => { g with pending := none }.add slot v

/-- Takes a long option. -/
def flag (g : Given) (flags : List Flag) (name : String) (value : Option String) :
    Except UsageFault Given := do
  match flags.find? fun f => f.name == name with
  | none => .error (.unknownArgument ("--" ++ name))
  | some f =>
    match f.value, value with
    | none, some _ => .error (.unneededValue name)
    | none, none =>
      let g ← g.settle
      if g.has name then .error (.repeated name) else return { g with values := g.values.put name [] }
    | some (_, kind), some v => (← g.settle).add ⟨name, kind, f.repeats⟩ v
    | some (_, kind), none => return { ← g.settle with pending := some (⟨name, kind, f.repeats⟩, none) }

/-- Takes an operand. -/
def operand (g : Given) (operand? : Option Operand) (word : String) : Except UsageFault Given := do
  let g ← g.settle
  match operand? with
  | none => .error (.unknownArgument word)
  | some o =>
    if g.has o.name then .error (.unknownArgument word)
    else return { g with pending := some (⟨o.name, .path, false⟩, some word) }

end Given

/-- Where reading came to an end. -/
inductive Stop where
  | done
  | help
  | command (word : String) (rest : List String)
deriving DecidableEq, Repr, Inhabited

/-- Operands, after two hyphens. -/
def readOperands (operand? : Option Operand) (g : Given) : List String → Except UsageFault Given
  | [] => .ok g
  | w :: r => do readOperands operand? (← g.operand operand? w) r

/-- Reads options and operands up to a word that is a command. A word that an option waits for is its
value, also if it is the name of a command. -/
def readWords (flags : List Flag) (operand? : Option Operand) (commands : List String) (g : Given) :
    List String → Except UsageFault (Given × Stop)
  | [] => .ok (g, .done)
  | w :: r => do
    if g.awaiting?.isNone && commands.contains w then return (g, .command w r)
    match Word.ofText w with
    | .stop => return (← readOperands operand? g r, .done)
    | .long "help" none => let _ ← g.settle; return (g, .help)
    | .long "help" (some _) => .error (.unneededValue "help")
    | .long name value => readWords flags operand? commands (← g.flag flags name value) r
    | .short 'h' => let _ ← g.settle; return (g, .help)
    | .short _ => .error (.unknownArgument w)
    | .plain =>
      match g.awaiting? with
      | some slot => readWords flags operand? commands { g with pending := some (slot, some w) } r
      | none => readWords flags operand? commands (← g.operand operand? w) r

/-- What is to be instrumented. -/
inductive Subject where
  | file (path : Path) (fileId : Option String)
  | tree (root : Path) (patterns : List String)
deriving DecidableEq, Repr, Inhabited

inductive Task where
  | instrument (subject : Subject) (out : Option Path)
  | prelude (out : Option Path)
  | ingest (events : Path) (store : Option Path) (reporter : Option Reporter)
  | verify (store : Option Path) (reporter : Option Reporter)
  | version
  | usage
deriving DecidableEq, Repr, Inhabited

/-- The options of the program as a whole. -/
structure Globals where
  config : Path
  cwd : Option Path
  json : Bool
deriving DecidableEq, Repr, Inhabited

/-- What arguments ask for. -/
inductive Request where
  | help (text : String)
  /-- The help text, as an answer to no arguments at all. -/
  | nothing
  | task (globals : Globals) (task : Task)
deriving DecidableEq, Repr, Inhabited

namespace Given

def path? (g : Given) (name : String) : Option Path := (g.value? name).map Path.mk

def reporter? (g : Given) : Option Reporter := (g.value? "reporter").bind Reporter.ofName?

def globals (g : Given) : Globals where
  config := (g.path? "config").getD ⟨defaultConfig⟩
  cwd := g.path? "cwd"
  json := g.has "json"

/-- One file or all below a root, but not both; only a single file can be given a name. -/
def subject (g : Given) : Except UsageFault Subject :=
  match g.path? "root", g.path? "INPUT" with
  | some _, some _ => .error (.conflict "INPUT" "root")
  | none, none => .error (.missingArgument "INPUT")
  | some root, none =>
    if g.has "file-id" then .error (.conflict "file-id" "root")
    else .ok (.tree root ((g.values.get? "glob").getD []))
  | none, some p => .ok (.file p (g.value? "file-id"))

def task (g : Given) : Name → Except UsageFault Task
  | .instrument => do return .instrument (← g.subject) (g.path? "out")
  | .prelude => .ok (.prelude (g.path? "out"))
  | .ingest =>
    .ok (.ingest ((g.path? "EVENTS").getD ⟨defaultEvents⟩) (g.path? "store") g.reporter?)
  | .verify => .ok (.verify (g.path? "store") g.reporter?)
  | .version => .ok .version
  | .usage => .ok .usage

end Given

/-- The help text for the words after `help`: no command has commands below it. -/
def helpFor : List String → Except UsageFault String
  | [] => .ok programHelp
  | w :: r => do
    let text ←
      if w = helpName then .ok helpHelp
      else
        match Name.ofText? w with
        | some n => .ok n.help
        | none => .error (.unknownCommand w)
    match r with
    | [] => return text
    | v :: _ => .error (.unknownCommand v)

/-- Reads a command after its name. All options of the program as a whole stand before it. -/
def readCommand (g : Given) (n : Name) (words : List String) : Except UsageFault Request := do
  let (own, stop) ← readWords n.flags n.operand? [] {} words
  match stop with
  | .help => return .help n.help
  | _ =>
    let task ← (← own.settle).task n
    return .task (← g.settle).globals task

/-- What arguments ask for, the name of the program apart. -/
def read (words : List String) : Except UsageFault Request := do
  let (g, stop) ← readWords globalFlags none (helpName :: Name.all.map Name.text) {} words
  match stop with
  | .help => return .help programHelp
  | .command w r =>
    match Name.ofText? w with
    | some n => readCommand g n r
    | none => return .help (← helpFor r)
  | .done =>
    let g ← g.settle
    if g.values.isEmpty then return .nothing else .error .missingCommand

end StepTrace.Command
