/-!
Paths as they are written. A path is a text whose parts stand between slashes; empty parts mean nothing,
and neither does a part `.`, except at the start of a relative path.
-/
namespace StepTrace

structure Path where
  text : String
deriving DecidableEq, Repr, Inhabited

namespace Path

inductive Component where
  | root
  | current
  | parent
  | name (s : String)
deriving DecidableEq, Repr, Inhabited

namespace Component

def text : Component → String
  | root => "/"
  | current => "."
  | parent => ".."
  | name s => s

/-- The order of components: the special ones come before all names. -/
def rank : Component → Nat
  | root => 0
  | current => 1
  | parent => 2
  | name _ => 3

def before : Component → Component → Bool
  | name s, name t => decide (s < t)
  | a, b => decide (a.rank < b.rank)

end Component

/-- The parts of a text between slashes; `part` holds what was read of the first one. -/
def partsFrom (part : List Char) : List Char → List String
  | [] => [String.ofList part.reverse]
  | '/' :: r => String.ofList part.reverse :: partsFrom [] r
  | c :: r => partsFrom (c :: part) r

def parts (p : Path) : List String := partsFrom [] p.text.toList

def isAbsolute (p : Path) : Bool := p.text.toList.head? == some '/'

/-- The component that a part means. -/
def componentOf? (part : String) : Option Component :=
  if part = "" ∨ part = "." then none
  else if part = ".." then some .parent
  else some (.name part)

/-- The component that stands before all parts. -/
def lead (p : Path) : List Component :=
  if p.isAbsolute then [.root]
  else if p.parts.head? = some "." then [.current]
  else []

def components (p : Path) : List Component := p.lead ++ p.parts.filterMap componentOf?

/-- Names between slashes. -/
def ofNames (names : List String) : Path := ⟨"/".intercalate names⟩

def ofComponents : List Component → Path
  | .root :: r => ⟨"/" ++ "/".intercalate (r.map Component.text)⟩
  | cs => ⟨"/".intercalate (cs.map Component.text)⟩

/-- Appends a path; an absolute one takes the place of all. -/
def join (p q : Path) : Path :=
  if q.isAbsolute then q
  else if p.text = "" ∨ p.text.toList.getLast? = some '/' then ⟨p.text ++ q.text⟩
  else ⟨p.text ++ "/" ++ q.text⟩

/-- The path without its last component. -/
def parent? (p : Path) : Option Path :=
  match p.components.getLast? with
  | none | some .root => none
  | some _ => some (ofComponents p.components.dropLast)

/-- The last component, if it is a name. -/
def fileName? (p : Path) : Option String :=
  match p.components.getLast? with
  | some (.name s) => some s
  | _ => none

/-- A name before its last dot and after it; a name that has no dot, or only one at its start, is all
stem. -/
def splitName (name : String) : String × Option String :=
  let reversed := name.toList.reverse
  let after := reversed.takeWhile (· ≠ '.')
  match reversed.drop after.length with
  | '.' :: before =>
    if before.isEmpty then (name, none)
    else (String.ofList before.reverse, some (String.ofList after.reverse))
  | _ => (name, none)

def extension? (p : Path) : Option String := p.fileName?.bind fun n => (splitName n).2

/-- Drops what stands after the last name, from a text read backwards. -/
def dropTail : List Char → List Char
  | '/' :: r => dropTail r
  | '.' :: '/' :: r => dropTail r
  | r => r

/-- Puts another extension in the place of the one that the last name has, or after it. -/
def withExtension (p : Path) (extension : String) : Path :=
  match p.fileName? with
  | none => p
  | some n =>
    let reversed := dropTail p.text.toList.reverse
    let stem := reversed.drop (n.length - (splitName n).1.length)
    ⟨String.ofList stem.reverse ++ "." ++ extension⟩

/-- What is left of components after others, if they start with them. -/
def stripComponents? : List Component → List Component → Option (List Component)
  | cs, [] => some cs
  | c :: cs, d :: ds => if c = d then stripComponents? cs ds else none
  | [], _ :: _ => none

/-- The components of a path below another. -/
def below? (p base : Path) : Option (List Component) := stripComponents? p.components base.components

def componentsBefore : List Component → List Component → Bool
  | [], [] => false
  | [], _ :: _ => true
  | _ :: _, [] => false
  | c :: cs, d :: ds => if c = d then componentsBefore cs ds else c.before d

/-- The order of paths: component by component. -/
def le (p q : Path) : Bool := !componentsBefore q.components p.components

/-- The path with slashes between its components, the root counting as one. -/
def slashed (p : Path) : String := "/".intercalate (p.components.map Component.text)

/-- Whether only a directory can be meant. -/
def meansDirectory (p : Path) : Bool :=
  match p.text.toList.reverse with
  | '/' :: _ => true
  | '.' :: '/' :: _ => true
  | ['.'] => true
  | _ => false

/-- The path and the paths above it, from the inside out. -/
def ancestors (p : Path) : List Path :=
  let cs := p.components
  p :: (List.range cs.length).reverse.filterMap fun n =>
    if n = 0 && p.isAbsolute then none else some (ofComponents (cs.take n))

end Path
end StepTrace
