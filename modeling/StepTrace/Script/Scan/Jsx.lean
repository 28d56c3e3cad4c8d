import StepTrace.Script.Scan.Literal
import StepTrace.Text.Entity

/-!
Scanning inside JSX: text between tags, names with hyphens, and quoted attribute values. Both kinds
of text may hold character entities.
-/
namespace StepTrace.Script.Scan

open StepTrace.Text

/-- An entity from its `&` on, or the `&` alone. -/
def jsxEntity : Parse Char := do
  skip 1
  let name := (← get).rest.take 10 |>.takeWhile (· ≠ ';')
  if (← charAt? name.length) = some ';' ∧ name.length < 10 then
    match Entity.decode? (String.ofList name) with
    | some c =>
      skip (name.length + 1)
      return c
    | none => return '&'
  else return '&'

/-- Text up to the next tag or hole. A lone bracket in it is a fault. A line end of two characters counts
as one, unless an entity stands for one of them. -/
def jsxText : Parse Token := do
  let start ← offset
  let text := (← get).rest
  let value ← Parse.grow (fun value => do
    let run ← takeRun fun c => !("<>&".toList.contains c || c == '\x7b' || c == '\x7d')
    if !run.isEmpty then
      return some (value ++ (String.ofList run).replace "\r\n" "\n")
    match ← char? with
    | none => Parse.fail start .unterminatedJsx
    | some '&' => return some (value.push (← jsxEntity))
    | some '>' =>
      Parse.note (← offset) (.unexpectedSuggesting ["`\x7b'>'\x7d`", "`&gt;`"])
      skip 1
      return some (value.push '>')
    | some c =>
      if c = '\x7d' then
        Parse.note (← offset) (.unexpectedSuggesting ["`\x7b'\x7d'\x7d`", "`&rbrace;`"])
        skip 1
        return some (value.push c)
      else return none) ""
  let raw ← spelling start text
  return .jsxText value raw

/-- A quoted value. A backslash is a character like any other. -/
def jsxString (quote : Char) : Parse Token := do
  let start ← offset
  let text := (← get).rest
  skip 1
  let value ← Parse.grow (fun value => do
    let run ← takeRun fun c => c ≠ quote ∧ c ≠ '&'
    if !run.isEmpty then return some (run.foldl String.push value)
    match ← char? with
    | some '&' => return some (value.push (← jsxEntity))
    | some _ => return none
    | none =>
      Parse.note start .unterminatedString
      return none) ""
  if (← charAt? 2).isSome then skip 1
  return .string value (← spelling start text)

/-- A name, which may hold hyphens. -/
def jsxWord : Parse Token := do
  let cs ← takeRun fun c => isIdentPart c || c == '-'
  return .jsxName (String.ofList cs)

end StepTrace.Script.Scan
