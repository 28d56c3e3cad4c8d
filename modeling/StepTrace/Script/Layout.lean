/-!
Laying text out in lines. A layout is a list of pieces: text, the end of a line, and steps of indentation.
The end of a line that holds nothing is dropped, so no blank line comes out, and a line is indented when
its first text is written.
-/
namespace StepTrace.Script

inductive Piece where
  | text (s : String)
  | line
  | indent
  | dedent
deriving DecidableEq, Repr, Inhabited

abbrev Layout := List Piece

namespace Layout

/-- The text written so far, the depth of the next line, and whether nothing is on the last line. -/
structure Page where
  out : String := ""
  depth : Nat := 0
  atStart : Bool := true
deriving Repr, Inhabited

/-- Four blanks for each step of indentation. -/
def margin : Nat → String
  | 0 => ""
  | n + 1 => "    " ++ margin n

def Page.write (p : Page) : Piece → Page
  | .text s =>
    if s.isEmpty then p
    else { p with out := (if p.atStart then p.out ++ margin p.depth else p.out) ++ s, atStart := false }
  | .line => if p.atStart then p else { p with out := p.out.push '\n', atStart := true }
  | .indent => { p with depth := p.depth + 1 }
  | .dedent => { p with depth := p.depth - 1 }

/-- The text of a layout. -/
def render (l : Layout) : String := (l.foldl Page.write {}).out

/-- One piece of text. -/
def word (s : String) : Layout := [.text s]

/-- Layouts one after the other with a text between them. -/
def separated (sep : String) : List Layout → Layout
  | [] => []
  | [l] => l
  | l :: r => l ++ .text sep :: separated sep r

/-- Layouts with a comma and a blank between them. -/
def commas (ls : List Layout) : Layout := separated ", " ls

/-- Layouts on lines of their own, indented, with a text after each but the last. -/
def lines (sep : String) (ls : List Layout) : Layout :=
  .line :: .indent :: go ls ++ [.dedent, .line]
where
  go : List Layout → Layout
    | [] => []
    | [l] => l
    | l :: r => l ++ .text sep :: .line :: go r

end Layout

end StepTrace.Script
