import StepTrace.Text.Debugged

/-!
Patterns for paths. `?` stands for one byte and `*` for any bytes, slashes included; `**` between slashes
stands for any directories. Brackets hold sets of characters, braces hold choices, and a backslash takes
away the meaning of a character.
-/
namespace StepTrace

namespace Glob

inductive Token where
  | char (c : Char)
  | any
  | star
  /-- Any directories at the start of a pattern or of a choice. -/
  | leadingDirs
  /-- All that is below a directory. -/
  | allBelow
  /-- A slash, or any directories between two. -/
  | middleDirs
  | set (negated : Bool) (ranges : List (Char × Char))
  | choice (branches : List (List Token))
deriving Repr, Inhabited

/-- Why a pattern means nothing. -/
inductive Cause where
  | unclosedSet
  | reversedRange (first last : Char)
  | unopenedChoice
  | unclosedChoice
  | danglingEscape
deriving DecidableEq, Repr, Inhabited

def Cause.message : Cause → String
  | unclosedSet => "unclosed character class; missing ']'"
  | reversedRange a b =>
    "invalid range; '" ++ String.singleton a ++ "' > '" ++ String.singleton b ++ "'"
  | unopenedChoice =>
    "unopened alternate group; missing '\x7b' (maybe escape '\x7d' with '[\x7d]'?)"
  | unclosedChoice =>
    "unclosed alternate group; missing '\x7d' (maybe escape '\x7b' with '[\x7b]'?)"
  | danglingEscape => "dangling '\\'"

/-! ### Reading -/

/-- Ends the range that was begun last. -/
def endRange (ranges : List (Char × Char)) (c : Char) : Except Cause (List (Char × Char)) :=
  match ranges with
  | [] => .ok [(c, c)]
  | (a, _) :: r => if c < a then .error (.reversedRange a c) else .ok ((a, c) :: r)

/-- The ranges of a set up to its closing bracket, the last one first. A bracket or a hyphen stands for
itself at the start, and so does a hyphen at the end. -/
def setRanges (first inRange : Bool) (ranges : List (Char × Char)) :
    List Char → Except Cause (List (Char × Char) × List Char)
  | [] => .error .unclosedSet
  | ']' :: r =>
    if first then setRanges false false ((']', ']') :: ranges) r
    else .ok (if inRange then ('-', '-') :: ranges else ranges, r)
  | '-' :: r =>
    if first then setRanges false false (('-', '-') :: ranges) r
    else if inRange then
      match endRange ranges '-' with
      | .ok ranges => setRanges false false ranges r
      | .error e => .error e
    else setRanges false true ranges r
  | c :: r =>
    if inRange then
      match endRange ranges c with
      | .ok ranges => setRanges false false ranges r
      | .error e => .error e
    else setRanges false false ((c, c) :: ranges) r

/-- A set after its opening bracket. -/
def readSet (cs : List Char) : Except Cause (Token × List Char) :=
  let (negated, r) :=
    match cs with
    | '!' :: r => (true, r)
    | '^' :: r => (true, r)
    | r => (false, r)
  (setRanges true false [] r).map fun (ranges, r) => (.set negated ranges.reverse, r)

/-- What two stars mean after the tokens `before`, the last one first. They stand for directories only
between slashes, the start, and the end. `previous` is the character before them. -/
def twoStars (inChoice : Bool) (previous : Option Char) (before : List Token) (cs : List Char) :
    List Token × Option Char × List Char :=
  let plain := (.star :: .star :: before, some '*', cs)
  match before with
  | [] =>
    match cs with
    | [] => ([.leadingDirs], some '*', [])
    | '/' :: r => ([.leadingDirs], some '/', r)
    | _ => plain
  | last :: earlier =>
    if previous ≠ some '/' && !(inChoice && (previous = some ',' || previous = some '\x7b')) then plain
    else
      let replaced (t : Token) : List Token :=
        match last with
        | .leadingDirs => .leadingDirs :: earlier
        | .allBelow => .allBelow :: earlier
        | _ => t :: earlier
      match cs with
      | [] => (replaced .allBelow, some '*', [])
      | '/' :: r => (replaced .middleDirs, some '/', r)
      | c :: r =>
        if inChoice && (c = ',' || c = '\x7d') then (replaced .allBelow, some '*', c :: r) else plain

mutual

/-- Reads tokens after those `before`, the last one first. In a choice a comma or a closing brace ends
them. -/
def readTokens : Nat → Bool → Option Char → List Token → List Char →
    Except Cause (List Token × List Char)
  | 0, _, _, before, cs => .ok (before.reverse, cs)
  | fuel + 1, inChoice, previous, before, cs =>
    match cs with
    | [] => if inChoice then .error .unclosedChoice else .ok (before.reverse, [])
    | '?' :: r => readTokens fuel inChoice (some '?') (.any :: before) r
    | '*' :: '*' :: r =>
      let (tokens, previous, r) := twoStars inChoice previous before r
      readTokens fuel inChoice previous tokens r
    | '*' :: r => readTokens fuel inChoice (some '*') (.star :: before) r
    | '[' :: r =>
      match readSet r with
      | .error e => .error e
      | .ok (t, r) => readTokens fuel inChoice (some ']') (t :: before) r
    | '\x7b' :: r =>
      match readBranches fuel '\x7b' r with
      | .error e => .error e
      | .ok (branches, r) => readTokens fuel inChoice (some '\x7d') (.choice branches :: before) r
    | '\x7d' :: r => if inChoice then .ok (before.reverse, '\x7d' :: r) else .error .unopenedChoice
    | ',' :: r =>
      if inChoice then .ok (before.reverse, ',' :: r)
      else readTokens fuel inChoice (some ',') (.char ',' :: before) r
    | '\\' :: r =>
      match r with
      | [] => .error .danglingEscape
      | c :: r => readTokens fuel inChoice (some c) (.char c :: before) r
    | c :: r => readTokens fuel inChoice (some c) (.char c :: before) r

/-- The branches of a choice up to its closing brace. -/
def readBranches : Nat → Char → List Char → Except Cause (List (List Token) × List Char)
  | 0, _, cs => .ok ([], cs)
  | fuel + 1, previous, cs =>
    match readTokens fuel true (some previous) [] cs with
    | .error e => .error e
    | .ok (tokens, ',' :: r) =>
      match readBranches fuel ',' r with
      | .error e => .error e
      | .ok (branches, r) => .ok (tokens :: branches, r)
    | .ok (tokens, r) => .ok ([tokens], r.drop 1)

end

/-! ### Matching -/

def bytesOf (c : Char) : List UInt8 := c.toString.toUTF8.toList

/-- The ranges of bytes that a range of characters gives: its ends are spelled byte by byte. -/
def byteRanges (range : Char × Char) : List (UInt8 × UInt8) :=
  let single (b : UInt8) : UInt8 × UInt8 := (b, b)
  let first := bytesOf range.1
  let last := bytesOf range.2
  if range.1 = range.2 then first.map single
  else
    match first.getLast?, last with
    | some a, b :: r => first.dropLast.map single ++ (a, b) :: r.map single
    | _, _ => []

def inSet (ranges : List (Char × Char)) (b : UInt8) : Bool :=
  (ranges.flatMap byteRanges).any fun (x, y) => x ≤ b && b ≤ y

/-- All ends of a list, the longest first. -/
def ends : List UInt8 → List (List UInt8)
  | [] => [[]]
  | b :: r => (b :: r) :: ends r

/-- The ends that stand after a slash. -/
def endsAfterSlash : List UInt8 → List (List UInt8)
  | [] => []
  | b :: r => if b = 0x2F then r :: endsAfterSlash r else endsAfterSlash r

/-- What is left after a slash. -/
def afterSlash? : List UInt8 → Option (List UInt8)
  | 0x2F :: r => some r
  | _ => none

/-- What is left after given bytes. -/
def after? : List UInt8 → List UInt8 → Option (List UInt8)
  | [], r => some r
  | b :: bs, c :: r => if b = c then after? bs r else none
  | _ :: _, [] => none

mutual

/-- What may be left of the bytes after one token: every end of them at most once. -/
def leave : Token → List (List UInt8) → List (List UInt8)
  | .char c, rests => rests.filterMap (after? (bytesOf c))
  | .any, rests => rests.filterMap List.tail?
  | .star, rests => (rests.flatMap ends).eraseDups
  | .leadingDirs, rests => (rests ++ rests.flatMap endsAfterSlash).eraseDups
  | .allBelow, rests => ((rests.filterMap afterSlash?).flatMap ends).eraseDups
  | .middleDirs, rests =>
    let inner := rests.filterMap afterSlash?
    (inner ++ inner.flatMap endsAfterSlash).eraseDups
  | .set negated ranges, rests =>
    rests.filterMap fun
      | b :: r => if inSet ranges b != negated then some r else none
      | [] => none
  | .choice branches, rests =>
    if areVacant branches then rests else (leaveAny branches rests).eraseDups

def leaveAll : List Token → List (List UInt8) → List (List UInt8)
  | [], rests => rests
  | t :: r, rests => leaveAll r (leave t rests)

/-- What may be left after one of the branches that are not vacant. -/
def leaveAny : List (List Token) → List (List UInt8) → List (List UInt8)
  | [], _ => []
  | b :: r, rests => (if isVacant b then [] else leaveAll b rests) ++ leaveAny r rests

/-- Whether tokens stand for nothing. -/
def isVacant : List Token → Bool
  | [] => true
  | .choice branches :: r => areVacant branches && isVacant r
  | _ :: _ => false

def areVacant : List (List Token) → Bool
  | [] => true
  | b :: r => isVacant b && areVacant r

end

def isChar : Token → Bool
  | .char _ => true
  | _ => false

/-- Whether the last part of a path is compared as a name, or by its extension. A path that ends in a
dot has neither. -/
def comparesName (tokens : List Token) : Bool :=
  let afterDirs :=
    match tokens with
    | .leadingDirs :: r => r
    | r => r
  let afterStar :=
    match afterDirs with
    | .star :: r => r
    | r => r
  let chars := tokens.reverse.takeWhile isChar
  let endsInDot :=
    match tokens.reverse with
    | .char '.' :: _ => true
    | _ => false
  let hasSlash := chars.any fun
    | .char '/' => true
    | _ => false
  let isName :=
    match tokens with
    | .leadingDirs :: _ => afterDirs.all isChar && !hasSlash
    | _ => false
  let isBareDot := afterStar.length == 1 && afterStar.length < afterDirs.length
  endsInDot && (isName || isBareDot || !(afterStar.all isChar))

end Glob

/-- A pattern that was read. -/
structure Glob where
  tokens : List Glob.Token
deriving Repr, Inhabited

namespace Glob

def ofText? (pattern : String) : Except Cause Glob :=
  let cs := pattern.toList
  (readTokens (2 * cs.length + 2) false none [] cs).map fun (tokens, _) => ⟨tokens⟩

/-- Whether a path is one that the pattern stands for. Two stars alone stand for every path. -/
def matchesPath (g : Glob) (path : String) : Bool :=
  let endsInDot := path.toList.getLast? = some '.'
  if endsInDot && comparesName g.tokens then false
  else
    match g.tokens with
    | [.leadingDirs] => true
    | tokens => (leaveAll tokens [path.toUTF8.toList]).any List.isEmpty

/-- What is told of a pattern that means nothing. -/
def message (pattern : String) (c : Cause) : String :=
  "invalid glob " ++ Text.debugged pattern ++ ": error parsing glob '" ++ pattern ++ "': "
    ++ c.message

end Glob
end StepTrace
