import StepTrace.Failure
import StepTrace.Json.Basic
import StepTrace.Script.Grammar.Module
import StepTrace.Script.Instrument
import StepTrace.Script.NormalForm
import StepTrace.Script.Print
import StepTrace.Script.Typed.Lowering

/-!
From the text of a file to its text with probes: it is read, freed of types, brought to normal form,
instrumented and written. A text that cannot be read is refused with the place of the fault.
-/
namespace StepTrace.Script

/-- A text with probes, and what is known of them. -/
structure Traced where
  code : String
  sites : List ProbeSite
deriving Repr, Inhabited

/-- A fault with the file and the position it was found at. -/
structure Refusal where
  file : String
  position : Position
  cause : Cause
deriving Repr, Inhabited

/-- What is told of a refusal. -/
def Refusal.failure (r : Refusal) : Failure :=
  .parse r.file r.position.line r.position.column r.cause.message

def ProbeKind.name : ProbeKind → String
  | .entry => "entry"
  | .statement => "statement"
  | .implicitReturn => "implicit_return"

def ProbeSite.toJson (s : ProbeSite) : Json :=
  .object
    [ ("kind", .text s.kind.name), ("line", .ofNat s.position.line)
    , ("column", .ofNat s.position.column), ("names", .ofTexts s.names) ]

/-- The characters of a text, without a mark at its start that tells the order of bytes. -/
def withoutByteOrderMark (text : String) : List Char :=
  match text.toList with
  | '\uFEFF' :: r => r
  | r => r

def instrument (dialect : Dialect) (file text : String) : Except Refusal Traced :=
  let cs := withoutByteOrderMark text
  match Program.ofText dialect cs with
  | .error f => .error ⟨file, Position.ofOffset cs f.offset, f.cause⟩
  | .ok p =>
    let t : Tracer := ⟨file, Position.ofOffset cs⟩
    let p := if dialect.isTyped then p.withoutTypes else p
    let (p, sites) := p.normal.instrument t
    .ok ⟨p.text, sites⟩

end StepTrace.Script
