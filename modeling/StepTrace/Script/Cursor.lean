import StepTrace.Script.Numeral
import StepTrace.Script.Scan.Next

/-!
Moving over the tokens of a program text. The token at hand is scanned when it is first looked at;
after it is taken, the place of the reader is the end of that token until the next is looked at.
-/
namespace StepTrace.Script

namespace Lexeme

/-- The lexeme as a message shows it. A fault is shown with its tag and its span in the bytes of the whole
text, which are counted from one. -/
def describe (text : List Char) (l : Lexeme) : String :=
  match l.content with
  | .ok t => t.describe Numeral.shown
  | .error f =>
    let byte (offset : Nat) : String :=
      toString ((text.take offset).foldl (fun n c => n + c.utf8Size) 1)
    let span := f.span l.span.stop
    "<lexing error: Error \x7b error: (" ++ byte span.start ++ ".." ++ byte span.stop ++ ", " ++
      f.cause.tag ++ ") \x7d>"

end Lexeme

namespace Parse

/-! ### The token at hand -/

/-- The lexeme at hand, or none at the end of the text. -/
def lexeme : Parse (Option Lexeme) := do
  let s ← get
  match s.current with
  | some l => return some l
  | none =>
    match s.next with
    | some l =>
      set { s with current := some l, next := none }
      return some l
    | none =>
      let l ← Scan.next
      modify fun s => { s with current := l }
      return l

/-- The lexeme after the one at hand. -/
def lexemeAhead : Parse (Option Lexeme) := do
  let _ ← lexeme
  let s ← get
  match s.next with
  | some l => return some l
  | none =>
    let l ← Scan.next
    modify fun s => { s with next := l }
    return l

/-- The token at hand; a fault and the end of the text are none. -/
def token : Parse (Option Token) := do
  return (← lexeme).bind Lexeme.token?

/-- The token after the one at hand. -/
def tokenAhead : Parse (Option Token) := do
  return (← lexemeAhead).bind Lexeme.token?

def atEnd : Parse Bool := do
  return (← lexeme).isNone

def at_ (t : Token) : Parse Bool := do
  return (← token) = some t

def atOne (ts : List Token) : Parse Bool := do
  return (← token).any ts.contains

def isAhead (t : Token) : Parse Bool := do
  return (← tokenAhead) = some t

/-- The word at hand is a given one that is no keyword. -/
def atWord (w : String) : Parse Bool := at_ (.ident w)

/-- Passes the lexeme at hand. -/
def bump : Parse Unit := do
  match ← lexeme with
  | some l => modify fun s => { s with current := none, previous := l.span }
  | none => return

/-- The place of the lexeme at hand, or of the one before if none was looked at. -/
def span : Parse Span := do
  let s ← get
  return match s.current with
    | some l => l.span
    | none => s.previous

/-- Where the lexeme at hand starts. -/
def pos : Parse Nat := do
  match ← lexeme with
  | some l => return l.span.start
  | none => return (← get).previous.stop

/-- Where the last lexeme that was passed ends. -/
def lastPos : Parse Nat := do
  return (← get).previous.stop

def previous : Parse Span := do
  return (← get).previous

/-- The place of a node that starts there. -/
def placeFrom (start : Nat) : Parse Place := do
  return some ⟨start, ← lastPos⟩

/-- A line ends before the token at hand. -/
def breakBefore : Parse Bool := do
  return (← lexeme).all Lexeme.afterBreak

/-- A line ends between the token at hand and the next. -/
def breakAhead : Parse Bool := do
  return (← lexemeAhead).all Lexeme.afterBreak

/-! ### Faults -/

/-- Records a fault, after the fault of the lexeme at hand if it has one. -/
def emit (offset : Nat) (cause : Cause) : Parse Unit := do
  unless (← setting).ignoreError do
    match ← lexeme with
    | some ⟨.error e, _, _, _⟩ =>
      bump
      note e.offset e.cause
    | _ => pure ()
    note offset cause

/-- Records a fault that was caught. -/
def emitFault (f : Fault) : Parse Unit := emit f.offset f.cause

/-- Stops with a fault; that of the lexeme at hand is recorded if it has one. -/
def stop {α : Type} (offset : Nat) (cause : Cause) : Parse α := do
  match ← lexeme with
  | some ⟨.error e, _, _, _⟩ =>
    bump
    emitFault e
  | _ => pure ()
  fail offset cause

/-- Stops with a fault at the place of the reader. -/
def stopHere {α : Type} (cause : Cause) : Parse α := do
  stop (← span).start cause

/-- The lexeme at hand as a message shows it, if there is one. -/
def shown? : Parse (Option String) := do
  let text := (← get).text
  return (← lexeme).map fun l => l.describe text

def shown : Parse String := do
  return (← shown?).getD "<eof>"

/-- The lexeme at hand with the sign that there is one, as some messages show it. -/
def shownOption : Parse String := do
  return match ← shown? with
    | some s => "Some(" ++ s ++ ")"
    | none => "None"

/-- Stops because of the token at hand, or because there is none. -/
def unexpected {α : Type} (wanted : String) : Parse α := do
  match ← shown? with
  | some got => stopHere (.unexpected got wanted)
  | none => fail (← get).limit .endOfText

/-- The token at hand, which has to be there. -/
def required : Parse Token := do
  match ← lexeme with
  | some ⟨.ok t, _, _, _⟩ => return t
  | some ⟨.error e, _, _, _⟩ =>
    bump
    throw e
  | none => fail (← get).limit .endOfText

/-! ### Taking tokens -/

/-- Takes the token at hand if it is the given one. -/
def eat (t : Token) : Parse Bool := do
  if ← at_ t then
    bump
    return true
  else return false

def eatWord (w : String) : Parse Bool := eat (.ident w)

def eatKeyword (k : Keyword) : Parse Bool := eat (.keyword k)

/-- Takes a given token, which has to be there. -/
def expect (t : Token) : Parse Unit := do
  unless ← eat t do
    let at_ := (← span).start
    stop at_ (.expected t.fixedText (← shown))

def expectWord (w : String) : Parse Unit := expect (.ident w)

def expectKeyword (k : Keyword) : Parse Unit := expect (.keyword k)

/-- A statement may end here without a semicolon. -/
def atStatementEnd : Parse Bool := do
  match ← lexeme with
  | none => return true
  | some ⟨.ok .semi, _, _, _⟩ | some ⟨.ok .rbrace, _, _, _⟩ => return true
  | some l => return l.afterBreak

/-- Takes the semicolon at hand, or none where it may be left out. -/
def eatStatementEnd : Parse Bool := do
  if ← eat .semi then return true
  else atStatementEnd

def expectStatementEnd : Parse Unit := do
  unless ← eatStatementEnd do
    let at_ := (← span).start
    stop at_ (.expected ";" (← shown))

end Parse

end StepTrace.Script
