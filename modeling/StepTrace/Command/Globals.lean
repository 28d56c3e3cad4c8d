/-!
Options of the program as a whole may stand anywhere among the arguments. Before the arguments are read,
these options are brought to the front, each with its value, and all else keeps its order.
-/
namespace StepTrace.Command

/-- An option of the whole program that has no value. -/
def isGlobalSwitch (word : String) : Bool := word == "--json"

/-- An option of the whole program whose value is the next argument. -/
def awaitsValue (word : String) : Bool := ["--config", "--cwd", "--log"].contains word

/-- An option of the whole program together with its value. -/
def holdsValue (word : String) : Bool :=
  ["--config=", "--cwd=", "--log="].any fun start => start.toList.isPrefixOf word.toList

/-- Arguments that belong together. -/
inductive Group where
  | global (words : List String)
  | other (word : String)
deriving DecidableEq, Repr, Inhabited

namespace Group

def words : Group → List String
  | global ws => ws
  | other w => [w]

def isGlobal : Group → Bool
  | global _ => true
  | other _ => false

end Group

/-- The groups of arguments from left to right. What follows an option with a value is its value,
whatever it looks like. -/
def groups : List String → List Group
  | [] => []
  | [w] => if awaitsValue w || isGlobalSwitch w || holdsValue w then [.global [w]] else [.other w]
  | w :: v :: r =>
    if awaitsValue w then .global [w, v] :: groups r
    else if isGlobalSwitch w || holdsValue w then .global [w] :: groups (v :: r)
    else .other w :: groups (v :: r)

/-- The name of the program, then the global groups, then all else. -/
def hoist : List String → List String
  | [] => []
  | program :: args =>
    let gs := groups args
    program :: ((gs.filter Group.isGlobal ++ gs.filter (!Group.isGlobal ·)).flatMap Group.words)

end StepTrace.Command
