/-!
The three dialects a source text may be written in. JSX belongs to plain JavaScript and to TSX, types
to TypeScript and TSX.
-/
namespace StepTrace.Script

inductive Dialect where
  | ecmaScript
  | typeScript
  | tsx
deriving DecidableEq, Repr, Inhabited

namespace Dialect

/-- Types, and what else TypeScript adds. -/
def isTyped : Dialect → Bool
  | ecmaScript => false
  | typeScript | tsx => true

/-- Elements in angle brackets. -/
def hasJsx : Dialect → Bool
  | ecmaScript | tsx => true
  | typeScript => false

end Dialect

end StepTrace.Script
