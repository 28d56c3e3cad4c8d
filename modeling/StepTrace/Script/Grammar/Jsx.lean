import StepTrace.Script.Grammar.Function

/-!
JSX elements. A tag is read under enclosures of its own, which the scanner keeps.
-/
namespace StepTrace.Script

namespace JsxName

/-- The name as it is compared and printed. -/
def text : JsxName → String
  | simple n => n.text
  | member head path => String.intercalate "." (head.text :: path)
  | namespaced space name => space ++ ":" ++ name

end JsxName

namespace Grammar

open Parse

/-- A name in a tag. -/
def jsxIdent : Parse Ident := do
  let start ← pos
  match ← required with
  | .jsxName w =>
    bump
    return ⟨← placeFrom start, w⟩
  | _ =>
    let s ← setting
    if s.inForcedJsx then ident (!s.inGenerator) (!s.inAsync)
    else unexpected "jsx identifier"

/-- The name of an attribute. -/
def jsxAttributeName : Parse String := do
  let n ← jsxIdent
  if ← eat .colon then
    let m ← jsxIdent
    return n.text ++ ":" ++ m.text
  return n.text

/-- The name of an element: simple, with a namespace, or a member of something. -/
def jsxElementName : Parse JsxName := do
  let n ← jsxIdent
  let space ← if ← eat .colon then some <$> jsxIdent else pure none
  let path ← many do
    if ← eat .dot then some <$> (Ident.text <$> jsxIdent) else return none
  return match space, path with
    | none, [] => .simple n
    | none, path => .member n path
    | some m, [] => .namespaced n.text m.text
    | some m, path => .member ⟨n.place, n.text ++ ":" ++ m.text⟩ path

/-- An expression in braces, or empty braces. -/
def jsxContainer (g : Grammar) : Parse (Option Expr) := do
  bump
  let e ← if ← at_ .rbrace then pure none else some <$> g.expr
  expect .rbrace
  return e

def jsxAttributeValue (g : Grammar) : Parse JsxPart := do
  let start ← pos
  match ← required with
  | .lbrace =>
    match ← jsxContainer g with
    | some e => return .container (some e)
    | none => stop start .emptyJsxAttribute
  | .string _ raw =>
    bump
    return .text raw
  | .jsxTagStart => .child <$> g.jsxElement
  | _ => stopHere .invalidJsxValue

def jsxAttribute (g : Grammar) : Parse JsxPart := do
  if ← eat .lbrace then
    expect .ellipsis
    let e ← g.assign
    expect .rbrace
    return .spread e
  let name ← jsxAttributeName
  let value ←
    if ← eat (.assign .set) then
      within (fun s => { s with inCondition := false, colonEndsCondition := false })
        (some <$> jsxAttributeValue g)
    else pure none
  return .attribute name value

/-- What an opening tag says. -/
structure OpeningTag where
  name : Option JsxName
  attributes : List JsxPart
  isClosed : Bool

def openingTag (g : Grammar) : Parse OpeningTag := do
  if ← eat .jsxTagEnd then return ⟨none, [], false⟩
  let name ← within (fun s => { s with wholeAngles := false }) jsxElementName
  if (← isTyped) && (← at_ (.binary .lt)) then
    let _ ← attempt (some <$> typeArguments g)
  let attributes ← many do
    if (← atEnd) || (← atOne [.binary .div, .jsxTagEnd]) then return none
    some <$> jsxAttribute g
  let isClosed ← eat (.binary .div)
  unless ← eat .jsxTagEnd do
    unless ← pure (← setting).inForcedJsx <&&> eat (.binary .gt) do
      unexpected "> (jsx closing tag)"
  return ⟨some name, attributes, isClosed⟩

/-- The name in a closing tag after its slash. -/
def closingTag : Parse (Option JsxName) := do
  if ← eat .jsxTagEnd then return none
  let name ← jsxElementName
  expect .jsxTagEnd
  return some name

/-- One child of an element, or the end of them with the name in the closing tag. -/
def jsxChild (g : Grammar) : Parse (Except (Nat × Option JsxName) JsxPart) := do
  match ← required with
  | .jsxTagStart =>
    let start ← pos
    if ← isAhead (.binary .div) then
      bump
      bump
      return .error (start, ← closingTag)
    return .ok (.child (← g.jsxElement))
  | .jsxText v _ =>
    bump
    return .ok (.text v)
  | .lbrace =>
    if ← isAhead .ellipsis then
      bump
      bump
      let e ← g.expr
      expect .rbrace
      return .ok (.spread e)
    return .ok (.container (← jsxContainer g))
  | _ => unexpected "< (jsx tag start), jsx text or \x7b"

def jsxElementRule (g : Grammar) : Parse Expr :=
  within (fun s => { s with inCondition := false, colonEndsCondition := false }) do
    let start ← pos
    let forced := (← token) = some (.binary .lt)
    let _ ← required
    bump
    within (fun s => { s with inForcedJsx := forced, wholeAngles := false }) do
      let tag ← openingTag g
      if tag.isClosed then return .element (← placeFrom start) tag.name true tag.attributes []
      let (close, children) ← grow (fun ((close, children) :
          Option (Nat × Option JsxName) × List JsxPart) => do
        if close.isSome then return none
        match ← jsxChild g with
        | .error c => return some (some c, children)
        | .ok c => return some (none, c :: children)) (none, [])
      let p ← placeFrom start
      let (closeStart, closeName) := close.getD (start, none)
      match tag.name, closeName with
      | none, some _ => stop closeStart .closingFragment
      | some n, none => stop closeStart (.closingElement n.text)
      | some n, some m =>
        unless n.text == m.text do stop closeStart (.closingElement n.text)
        return .element p tag.name false tag.attributes children.reverse
      | none, none => return .element p none false tag.attributes children.reverse

end Grammar

end StepTrace.Script
