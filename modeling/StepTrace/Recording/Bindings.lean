import StepTrace.Json.Basic
import StepTrace.Names

/-!
The names that can be read at a probe, and what is kept of them. A read that fails leaves a placeholder
and does not disturb the others.
-/
namespace StepTrace.Recording

/-- Why the value of a name could not be taken. -/
inductive CaptureFault where
  | unavailable (detail : String)
  | unserializable (detail : String)
deriving DecidableEq, Repr, Inhabited

namespace CaptureFault

def placeholder : CaptureFault → String
  | unavailable _ => "[unavailable]"
  | unserializable _ => "[unserializable]"

def message : CaptureFault → String
  | unavailable d => "binding unavailable: " ++ d
  | unserializable d => "binding not serializable: " ++ d

end CaptureFault

/-- Names in the order of their declaration, and a read of each that may fail. -/
structure Bindings where
  names : List String
  read : String → Except CaptureFault Json

namespace Bindings

/-- Names with the outcome of their reads; of pairs with the same name the first one is read. -/
def ofReads (reads : List (String × Except CaptureFault Json)) : Bindings where
  names := reads.map Prod.fst
  read name := (Keyed.get? reads name).getD (.error (.unavailable ("no binding named " ++ name)))

/-- The value that is kept for a name. -/
def kept (b : Bindings) (name : String) : Json :=
  match b.read name with
  | .ok v => v
  | .error f => .text f.placeholder

/-- Whether a capture of that size is full. -/
def isFull (maxVars : Option Nat) (size : Nat) : Bool :=
  match maxVars with
  | none => false
  | some n => n ≤ size

def captureFrom (b : Bindings) (maxVars : Option Nat) (vars : Members) : List String → Members
  | [] => vars
  | name :: r =>
    if isFull maxVars vars.length then vars
    else if name = argumentsName then captureFrom b maxVars vars r
    else captureFrom b maxVars (vars.put name (b.kept name)) r

/-- The values of the first names, up to a number of them. -/
def capture (b : Bindings) (maxVars : Option Nat) : Members := b.captureFrom maxVars [] b.names

end Bindings
end StepTrace.Recording
