import StepTrace.Command.Outline
import StepTrace.Text.Align

/-!
The help texts of the program and of its commands.
-/
namespace StepTrace.Command

def programName : String := "stepwise"

def programAbout : String := "instrument JS/TS sources and record test runs as replayable step trees"

/-- A part of a help text: a title, and entries in two columns. -/
structure HelpSection where
  title : String
  entries : List (String × String)
deriving DecidableEq, Repr, Inhabited

namespace HelpSection

/-- The second column starts two blanks after the longest entry of the first. -/
def text (s : HelpSection) : String :=
  let width := (s.entries.map fun e => e.1.length).foldl max 0
  let line (e : String × String) : String := "  " ++ Text.alignLeft width e.1 ++ "  " ++ e.2 ++ "\n"
  s.title ++ ":\n" ++ String.join (s.entries.map line)

end HelpSection

/-- A description with what stands in brackets after it. -/
def describe (about : String) (default : Option String) (choices : List String) : String :=
  let parts := [if about = "" then none else some about,
    default.map fun d => "[default: " ++ d ++ "]",
    if choices.isEmpty then none else some ("[possible values: " ++ ", ".intercalate choices ++ "]")]
  " ".intercalate (parts.filterMap id)

namespace Flag

def entry (f : Flag) : String × String :=
  match f.value with
  | none => ("    --" ++ f.name, describe f.about f.default [])
  | some (word, kind) =>
    ("    --" ++ f.name ++ " <" ++ word ++ ">", describe f.about f.default kind.choices)

/-- The order of options in help texts: by place, then by name. -/
def le (f g : Flag) : Bool := f.place < g.place || (f.place == g.place && !decide (g.name < f.name))

end Flag

namespace Operand

/-- An operand that may be left out. -/
def sign (o : Operand) : String := "[" ++ o.name ++ "]"

def entry (o : Operand) : String × String := (o.sign, describe o.about o.default [])

end Operand

def optionsSection (flags : List Flag) : HelpSection where
  title := "Options"
  entries := (flags.mergeSort Flag.le).map Flag.entry ++ [("-h, --help", "Print help")]

/-- A help text: what it is about, how to call it, and its sections. -/
def helpText (about usage : String) (sections : List HelpSection) : String :=
  about ++ "\n\nUsage: " ++ programName ++ " " ++ usage ++ "\n"
    ++ String.join (sections.map fun s => "\n" ++ s.text)

def programHelp : String :=
  helpText programAbout "[OPTIONS] <COMMAND>"
    [ ⟨"Commands", Name.all.map (fun n => (n.text, n.about)) ++ [(helpName, helpAbout)]⟩
    , optionsSection globalFlags ]

namespace Name

def help (n : Name) : String :=
  let operands := n.operand?.toList
  let usage := " ".intercalate ([n.text, "[OPTIONS]"] ++ operands.map Operand.sign)
  let arguments := if operands.isEmpty then [] else [⟨"Arguments", operands.map Operand.entry⟩]
  helpText n.about usage (arguments ++ [optionsSection (globalFlags ++ n.flags)])

end Name

/-- The help text of the command that tells of the others. -/
def helpHelp : String :=
  helpText helpAbout "help [COMMAND]..."
    [⟨"Arguments", [("[COMMAND]...", "Print help for the subcommand(s)")]⟩]

end StepTrace.Command
