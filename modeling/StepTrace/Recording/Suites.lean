/-!
The suites that are open, the outermost first.
-/
namespace StepTrace.Recording

structure Suites where
  names : List String
deriving DecidableEq, Repr, Inhabited

namespace Suites

def empty : Suites := ⟨[]⟩

def push (s : Suites) (name : String) : Suites := ⟨s.names ++ [name]⟩

/-- Closes the innermost suite; nothing happens when none is open. -/
def pop (s : Suites) : Suites := ⟨s.names.dropLast⟩

/-- The innermost suite. -/
def innermost? (s : Suites) : Option String := s.names.getLast?

def isEmpty (s : Suites) : Bool := s.names.isEmpty

/-- The names of the open suites, or one default name when none is open. -/
def pathOr (s : Suites) (default : String) : List String :=
  if s.names.isEmpty then [default] else s.names

theorem pop_push (s : Suites) (name : String) : (s.push name).pop = s := by
  simp [push, pop]

theorem pop_empty : empty.pop = empty := rfl

end Suites
end StepTrace.Recording
