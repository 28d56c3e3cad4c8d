import StepTrace.Script.Reader
import StepTrace.Text.Blank

/-!
Moving over the characters of a program text, and skipping blanks and comments.
-/
namespace StepTrace.Script.Scan

open StepTrace.Text

def char? : Parse (Option Char) := do
  return (← get).rest.head?

/-- The character `n` places ahead. -/
def charAt? (n : Nat) : Parse (Option Char) := do
  return (← get).rest[n]?

def offset : Parse Nat := do
  return (← get).offset

def skip (n : Nat) : Parse Unit :=
  modify fun s => { s with rest := s.rest.drop n, offset := s.offset + n }

/-- Steps over one given character, if it is there. -/
def eat (c : Char) : Parse Bool := do
  if (← char?) = some c then
    skip 1
    return true
  else return false

/-- Takes the longest run of characters of a kind. -/
def takeRun (p : Char → Bool) : Parse (List Char) := do
  let cs := (← get).rest.takeWhile p
  skip cs.length
  return cs

/-- Goes back to a place that was passed before. -/
def goTo (offset : Nat) (text : List Char) : Parse Unit :=
  modify fun s => { s with offset := offset, rest := text }

/-- What is being skipped: blanks, a comment up to the end of its line, or a block comment whose last
character was a star or not. -/
inductive Skimming where
  | blanks
  | line
  | block (star : Bool)
deriving DecidableEq, Repr, Inhabited

/-- The outcome of skipping. -/
structure Skimmed where
  rest : List Char
  count : Nat
  sawBreak : Bool
  unterminated : Bool
deriving Repr, Inhabited

def Skimmed.ahead (n : Nat) (sawBreak : Bool) (k : Skimmed) : Skimmed :=
  { k with count := k.count + n, sawBreak := sawBreak || k.sawBreak }

/-- Skips blanks and comments from the start of a text. -/
def skim : Skimming → List Char → Skimmed
  | .blanks, '/' :: '/' :: r => (skim .line r).ahead 2 false
  | .blanks, '/' :: '*' :: r => (skim (.block false) r).ahead 2 false
  | .line, c :: r =>
    if isLineEnd c then (skim .blanks r).ahead 1 true else (skim .line r).ahead 1 false
  | .block true, '/' :: r => (skim .blanks r).ahead 1 false
  | .block _, c :: r => (skim (.block (c == '*')) r).ahead 1 (isLineEnd c)
  | .blanks, c :: r =>
    if isWhiteSpace c || c == '\uFEFF' then (skim .blanks r).ahead 1 (isLineEnd c)
    else ⟨c :: r, 0, false, false⟩
  | .block _, [] => ⟨[], 0, false, true⟩
  | _, [] => ⟨[], 0, false, false⟩

/-- Skips blanks and comments, from within a comment or not. -/
def skipFrom (m : Skimming) : Parse Unit := do
  let s ← get
  let k := skim m s.rest
  set { s with
    rest := k.rest, offset := s.offset + k.count, afterBreak := s.afterBreak || k.sawBreak }
  if k.unterminated then Parse.note s.limit .unterminatedComment

def skipBlanks : Parse Unit := skipFrom .blanks

/-- Skips the rest of a line that starts `n` characters ahead, and the blanks after it. -/
def skipLine (n : Nat) : Parse Unit := do
  skip n
  skipFrom .line

end StepTrace.Script.Scan
