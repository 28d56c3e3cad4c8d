import StepTrace.Script.Scan.Basic
import StepTrace.Text.Identifier

/-!
Scanning words and literals. A literal keeps its spelling; a string has its value besides.
-/
namespace StepTrace.Script.Scan

open StepTrace.Text

def digit? (radix : Nat) (c : Char) : Option Nat :=
  let v :=
    if '0' ≤ c ∧ c ≤ '9' then c.toNat - '0'.toNat
    else if 'a' ≤ c ∧ c ≤ 'z' then c.toNat - 'a'.toNat + 10
    else if 'A' ≤ c ∧ c ≤ 'Z' then c.toNat - 'A'.toNat + 10
    else radix
  if v < radix then some v else none

/-- The spelling of what was read since a place that was passed before. -/
def spelling (start : Nat) (text : List Char) : Parse String := do
  return String.ofList (text.take ((← offset) - start))

/-! ### Numbers -/

/-- Reads digits, at most `most` of them if that is not zero. A separator has to stand between two
digits. -/
def digits (radix most : Nat) : Parse (List Nat) := do
  let start ← offset
  let ds ← Parse.grow (fun ds => do
    if most ≠ 0 ∧ ds.length = most then return none
    match ← char? with
    | some '_' =>
      unless ((← charAt? 1).bind (digit? radix)).isSome && !ds.isEmpty do
        Parse.note start .misplacedSeparator
      skip 1
      return some ds
    | some c =>
      match digit? radix c with
      | some d =>
        skip 1
        return some (d :: ds)
      | none => return none
    | none => return none) ([] : List Nat)
  return ds.reverse

/-- Digits, of which there has to be one. -/
def someDigits (radix : Nat) : Parse (List Nat) := do
  let start ← offset
  let ds ← digits radix 0
  if ds.isEmpty then Parse.fail start (.expectedDigit radix)
  return ds

/-- A number ends where no name starts. -/
def noNameHere : Parse Unit := do
  match ← char? with
  | some c => if isIdentStart c then Parse.fail (← offset) .identifierAfterNumber
  | none => return

/-- A number with a radix mark such as `0x`. -/
def radixNumber (radix : Nat) : Parse Token := do
  let start ← offset
  let text := (← get).rest
  skip 2
  let _ ← someDigits radix
  if ← eat 'n' then return .bigint (← spelling start text)
  noNameHere
  return .number (← spelling start text)

/-- The end of an old octal number, which starts with a needless zero. -/
def legacyOctal (start : Nat) (text : List Char) : Parse Token := do
  noNameHere
  if (← get).dialect.isTyped then Parse.note start .legacyOctalInTyped
  Parse.noteInStrict start .legacyOctal
  return .number (← spelling start text)

/-- A fraction and an exponent, up to the end of a number. -/
def numberTail (start : Nat) (text : List Char) : Parse Token := do
  if ← eat '.' then
    let _ ← digits 10 0
  match ← char? with
  | some 'e' | some 'E' =>
    skip 1
    match ← char? with
    | none => Parse.fail (← offset) .missingExponent
    | some c => if c = '+' ∨ c = '-' then skip 1
    let _ ← someDigits 10
  | _ => pure ()
  noNameHere
  return .number (← spelling start text)

/-- A decimal number, or an old octal one. -/
def number (startsWithDot : Bool) : Parse Token := do
  let start ← offset
  let text := (← get).rest
  if startsWithDot then numberTail start text
  else
    let ds ← someDigits 10
    let length := (← offset) - start
    if ← eat 'n' then return .bigint (← spelling start text)
    if text.head? = some '0' ∧ length ≠ 1 then
      if ds.any (8 ≤ ·) then
        Parse.noteInStrict start .legacyDecimal
        numberTail start text
      else legacyOctal start text
    else numberTail start text

/-! ### Escapes -/

/-- What follows the `u` of an escape. A code that is no character stands for its own spelling. -/
def unicodeEscape : Parse (List Char) := do
  skip 1
  let curly ← eat '{'
  let start ← offset
  let text := (← get).rest
  let ds ← digits 16 (if curly then 0 else 4)
  let value := ds.foldl (fun n d => n * 16 + d) 0
  if ds.isEmpty || (!curly && ds.length ≠ 4) || value ≥ Nat.pow 2 32 then
    Parse.fail (← offset) (.badEscape (if curly then "1-6 hex characters" else "4 hex characters"))
  if 0x10FFFF < value then
    Parse.fail (← offset) (.badEscape
      (if curly then "1-6 hex characters in the range 0 to 10FFFF." else "4 hex characters"))
  let close : Parse Unit := do
    if curly then
      unless ← eat '}' do Parse.fail start .invalidUnicodeEscape
  if 0xD800 ≤ value ∧ value ≤ 0xDFFF then
    goTo start text
    let shown := if curly then (text.take 6).takeWhile (· ≠ '}') else text.take 4
    skip shown.length
    close
    return if curly then ['\\', 'u', '{'] ++ shown ++ ['}'] else ['\\', 'u'] ++ shown
  close
  return [Char.ofNat value]

/-- An old octal escape has up to three digits and a value below 256. -/
def octalEscape (first : Nat) : Parse (List Char) := do
  match (← char?).bind (digit? 8) with
  | none => return [Char.ofNat first]
  | some d =>
    skip 1
    let two := first * 8 + d
    match (← char?).bind (digit? 8) with
    | none => return [Char.ofNat two]
    | some e =>
      if two * 8 + e < 256 then
        skip 1
        return [Char.ofNat (two * 8 + e)]
      else return [Char.ofNat two]

/-- An escape in a string or a template, from its backslash on. A line that is continued gives no
character. -/
def escape (inTemplate : Bool) : Parse (List Char) := do
  let start ← offset
  skip 1
  let give (c : Char) : Parse (List Char) := do
    skip 1
    return [c]
  match ← char? with
  | none => Parse.fail start .invalidStringEscape
  | some 'n' => give '\n'
  | some 'r' => give '\r'
  | some 't' => give '\t'
  | some 'b' => give '\x08'
  | some 'v' => give '\x0b'
  | some 'f' => give '\x0c'
  | some '\r' =>
    skip 1
    let _ ← eat '\n'
    return []
  | some '\n' | some '\u2028' | some '\u2029' =>
    skip 1
    return []
  | some 'x' =>
    skip 1
    let ds ← digits 16 2
    if ds.length = 2 then return [Char.ofNat (ds.foldl (fun n d => n * 16 + d) 0)]
    else Parse.fail start (.badEscape "2 hex characters")
  | some 'u' =>
    try unicodeEscape
    catch e => Parse.fail start e.cause
  | some c =>
    if '0' ≤ c ∧ c ≤ '7' then
      skip 1
      if c = '0' ∧ ((← char?).bind (digit? 8)).isNone then return ['\x00']
      if inTemplate then Parse.fail start .legacyOctal
      Parse.noteInStrict start .legacyOctal
      octalEscape (c.toNat - '0'.toNat)
    else give c

/-! ### Words -/

/-- A word that is reserved at this place, so that it must not be spelled with an escape. -/
def isReserved (s : Setting) (w : String) : Bool :=
  match w with
  | "let" => s.strict
  | "await" => s.inAsync || s.inStaticBlock || s.strict
  | "yield" => s.inGenerator || s.strict
  | "null" | "true" | "false" | "enum" => true
  | "implements" | "package" | "protected" | "interface" | "private" | "public" => s.strict
  | _ => (Keyword.ofText? w).isSome

/-- The characters of a word, and whether an escape stood among them. -/
def wordChars : Parse (String × Bool) :=
  Parse.grow (fun (text, escaped) => do
    let run ← takeRun isIdentPart
    if !run.isEmpty then return some (run.foldl String.push text, escaped)
    else if (← char?) = some '\\' then
      let start ← offset
      skip 1
      unless (← char?) = some 'u' do Parse.fail start .expectedUnicodeEscape
      let cs ← unicodeEscape
      if cs.head?.any fun c => !isIdentPart c then Parse.note start .invalidIdentifierCharacter
      return some (cs.foldl String.push text, true)
    else return none) ("", false)

/-- The token of a word. -/
def Token.ofWord (w : String) : Token :=
  match w with
  | "null" => .null
  | "true" => .true
  | "false" => .false
  | _ =>
    match Keyword.ofText? w with
    | some k => .keyword k
    | none => .ident w

/-- The token is a word that is reserved at this place. -/
def isReservedToken (s : Setting) : Token → Bool
  | .escaped _ => false
  | t => t.word?.any (isReserved s)

/-- A word. One that starts with an escape is taken as it is; in another that is reserved there must be
no escape. -/
def word : Parse Token := do
  let start ← offset
  let first ← char?
  let (w, escaped) ← wordChars
  if first = some '\\' then return .escaped w
  if escaped && isReserved (← Parse.setting) w then Parse.fail start (.escapedReservedWord w)
  return Token.ofWord w

/-! ### Strings, templates and regular expressions -/

/-- A string up to its closing quote. One that its line cuts off ends there. -/
def string (quote : Char) : Parse Token := do
  let start ← offset
  let text := (← get).rest
  skip 1
  let value ← Parse.grow (fun value => do
    let run ← takeRun fun c => c ≠ quote ∧ c ≠ '\\' ∧ c ≠ '\n' ∧ c ≠ '\r'
    if !run.isEmpty then return some (run.foldl String.push value)
    else if (← char?) = some '\\' then return some ((← escape false).foldl String.push value)
    else return none) ""
  unless ← eat quote do Parse.note start .unterminatedString
  return .string value (← spelling start text)

/-- A stretch of a template up to its end or the next hole, with the last fault of its escapes. -/
def templateChunk : Parse Token := do
  let start ← offset
  let text := (← get).rest
  let stop ← get
  let fault ← Parse.grow (fun (fault : Option Fault) => do
    match ← char?, ← charAt? 1 with
    | some '\x60', _ | some '$', some '{' => return none
    | some '\\', _ =>
      try
        let _ ← escape true
        return some fault
      catch e => return some (some e)
    | some c, _ =>
      if isLineEnd c then modify fun s => { s with afterBreak := true }
      skip 1
      return some fault
    | none, _ => Parse.fail stop.templateStart .unterminatedTemplate) none
  return .template (← spelling start text) fault

/-- The text that a stretch of a template stands for, unless an escape in it is at fault. -/
def cooked? (chunk : String) : Option String :=
  let read : Parse String := Parse.grow (fun value => do
    match ← char? with
    | none => return none
    | some '\\' => return some ((← escape true).foldl String.push value)
    | some c =>
      skip 1
      return some (value.push c)) ""
  match read.run (Reader.ofText .typeScript chunk.toList) with
  | .ok value _ => some value
  | .error .. => none

/-- The body of a regular expression: how many characters stand before the slash that ends it, if
one does on this line. -/
def regexBody : (escaped inClass : Bool) → List Char → Option Nat
  | _, _, [] => none
  | true, k, c :: r => if isLineEnd c then none else (regexBody false k r).map (· + 1)
  | false, k, c :: r =>
    if isLineEnd c then none
    else if c = '/' ∧ !k then some 0
    else
      let k := if c = '[' then true else if c = ']' then false else k
      (regexBody (c == '\\') k r).map (· + 1)

/-- A regular expression, from its first slash on. -/
def regex : Parse Token := do
  let start ← offset
  skip 1
  let text := (← get).rest
  match regexBody false false text with
  | none => Parse.fail start .unterminatedRegex
  | some n =>
    skip (n + 1)
    let flags ← match ← char? with
      | some c => if isIdentStart c then (·.1) <$> wordChars else pure ""
      | none => pure ""
    return .regex (String.ofList (text.take n)) flags

end StepTrace.Script.Scan
