/-!
Places in a source text. A span is a range of character offsets; a made-up node has none. Lines and
columns are counted from the text: a line ends at a line feed, a carriage return, or the two in that
order, and a column is the number of UTF-16 units before the place on its line.
-/
namespace StepTrace.Script

/-- The characters from `start` up to, not including, `stop`. -/
structure Span where
  start : Nat
  stop : Nat
deriving DecidableEq, Repr, Inhabited

/-- Where a node was read; `none` for a node that was made up. -/
abbrev Place := Option Span

namespace Place

/-- Where a node starts; one that was made up starts at zero. -/
def start (p : Place) : Nat := (p.map Span.start).getD 0

def stop (p : Place) : Nat := (p.map Span.stop).getD 0

end Place

/-- A line, counted from one, and a column, counted from zero. -/
structure Position where
  line : Nat
  column : Nat
deriving DecidableEq, Repr, Inhabited

namespace Position

/-- A character outside the basic plane takes two units. -/
def width (c : Char) : Nat := if c.toNat < 0x10000 then 1 else 2

/-- The position reached after reading the first `n` characters of a text, started at `p`. -/
def advance (p : Position) : Nat → List Char → Position
  | 0, _ => p
  | _, [] => p
  | n + 1, '\r' :: '\n' :: r =>
    match n with
    | 0 => ⟨p.line, p.column + 1⟩
    | m + 1 => advance ⟨p.line + 1, 0⟩ m r
  | n + 1, c :: r =>
    advance (if c = '\n' ∨ c = '\r' then ⟨p.line + 1, 0⟩ else ⟨p.line, p.column + width c⟩) n r

/-- The position of the character at an offset. -/
def ofOffset (text : List Char) (offset : Nat) : Position :=
  advance ⟨1, 0⟩ offset text

end Position

end StepTrace.Script
