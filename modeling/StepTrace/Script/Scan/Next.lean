import StepTrace.Script.Scan.Enclosure
import StepTrace.Script.Scan.Jsx

/-!
Scanning the next token. Which one it is depends on what encloses the place and on the setting of the
reader, so `next` is called only when the token is asked for.
-/
namespace StepTrace.Script.Scan

open StepTrace.Text

/-- Takes characters that make up a token of fixed spelling. -/
def fixed (n : Nat) (t : Token) : Parse (Option Token) := do
  skip n
  return some t

/-- The operator that starts a text, and its length. -/
def operator? : List Char → Option (Nat × Token)
  | '.' :: '.' :: '.' :: _ => some (3, .ellipsis)
  | '.' :: _ => some (1, .dot)
  | '(' :: _ => some (1, .lparen)
  | ')' :: _ => some (1, .rparen)
  | '[' :: _ => some (1, .lbracket)
  | ']' :: _ => some (1, .rbracket)
  | '\x7b' :: _ => some (1, .lbrace)
  | '\x7d' :: _ => some (1, .rbrace)
  | ';' :: _ => some (1, .semi)
  | ',' :: _ => some (1, .comma)
  | ':' :: _ => some (1, .colon)
  | '@' :: _ => some (1, .atSign)
  | '#' :: _ => some (1, .hash)
  | '~' :: _ => some (1, .tilde)
  | '\x60' :: _ => some (1, .backquote)
  | '?' :: '?' :: '=' :: _ => some (3, .assign .nullish)
  | '?' :: '?' :: _ => some (2, .binary .nullish)
  | '?' :: _ => some (1, .question)
  | '/' :: '=' :: _ => some (2, .assign .div)
  | '/' :: _ => some (1, .binary .div)
  | '%' :: '=' :: _ => some (2, .assign .rem)
  | '%' :: _ => some (1, .binary .rem)
  | '*' :: '*' :: '=' :: _ => some (3, .assign .exp)
  | '*' :: '*' :: _ => some (2, .binary .exp)
  | '*' :: '=' :: _ => some (2, .assign .mul)
  | '*' :: _ => some (1, .binary .mul)
  | '|' :: '|' :: '=' :: _ => some (3, .assign .logicalOr)
  | '|' :: '|' :: _ => some (2, .binary .logicalOr)
  | '|' :: '=' :: _ => some (2, .assign .bitOr)
  | '|' :: _ => some (1, .binary .bitOr)
  | '&' :: '&' :: '=' :: _ => some (3, .assign .logicalAnd)
  | '&' :: '&' :: _ => some (2, .binary .logicalAnd)
  | '&' :: '=' :: _ => some (2, .assign .bitAnd)
  | '&' :: _ => some (1, .binary .bitAnd)
  | '^' :: '=' :: _ => some (2, .assign .bitXor)
  | '^' :: _ => some (1, .binary .bitXor)
  | '+' :: '+' :: _ => some (2, .plusPlus)
  | '+' :: '=' :: _ => some (2, .assign .add)
  | '+' :: _ => some (1, .binary .add)
  | '-' :: '-' :: _ => some (2, .minusMinus)
  | '-' :: '=' :: _ => some (2, .assign .sub)
  | '-' :: _ => some (1, .binary .sub)
  | '<' :: '<' :: '=' :: _ => some (3, .assign .shiftLeft)
  | '<' :: '<' :: _ => some (2, .binary .shiftLeft)
  | '<' :: '=' :: _ => some (2, .binary .ltEq)
  | '<' :: _ => some (1, .binary .lt)
  | '>' :: '>' :: '>' :: '=' :: _ => some (4, .assign .shiftRightZero)
  | '>' :: '>' :: '>' :: _ => some (3, .binary .shiftRightZero)
  | '>' :: '>' :: '=' :: _ => some (3, .assign .shiftRight)
  | '>' :: '>' :: _ => some (2, .binary .shiftRight)
  | '>' :: '=' :: _ => some (2, .binary .gtEq)
  | '>' :: _ => some (1, .binary .gt)
  | '!' :: '=' :: '=' :: _ => some (3, .binary .notEqEq)
  | '!' :: '=' :: _ => some (2, .binary .notEq)
  | '!' :: _ => some (1, .bang)
  | '=' :: '=' :: '=' :: _ => some (3, .binary .eqEqEq)
  | '=' :: '=' :: _ => some (2, .binary .eqEq)
  | '=' :: '>' :: _ => some (2, .arrow)
  | '=' :: _ => some (1, .assign .set)
  | _ => none

/-- A line that only looks like code. -/
inductive FalseLine where
  /-- A comment of the old kind `<!--` or `-->`. -/
  | comment
  /-- A mark that a merge left. -/
  | mark
  /-- The mark between the sides of a merge and what both come from; no token follows it. -/
  | commonMark
deriving DecidableEq, Repr, Inhabited

/-- The number of characters that tell such a line, and what it is. -/
def falseLine? (afterBreak : Bool) (text : List Char) : Option (Nat × FalseLine) :=
  let starts (s : String) : Bool := s.toList.isPrefixOf text
  if starts "<!--" then some (4, .comment)
  else if !afterBreak then none
  else if starts "-->" then some (3, .comment)
  else if starts "<<<<<<< " || starts ">>>>>>> " || starts "=======" then some (7, .mark)
  else if starts "||||||| " then some (7, .commonMark)
  else none

/-- A token outside of templates and JSX text. -/
def plain : Nat → Parse (Option Token)
  | 0 => return none
  | n + 1 => do
    let start ← offset
    let s ← get
    match s.rest with
    | [] => return none
    | '0' :: c :: _ =>
      match c with
      | 'x' | 'X' => some <$> radixNumber 16
      | 'o' | 'O' => some <$> radixNumber 8
      | 'b' | 'B' => some <$> radixNumber 2
      | _ => some <$> number false
    | '.' :: d :: r =>
      if d.isDigit then some <$> number true
      else match operator? ('.' :: d :: r) with
        | some (k, t) => fixed k t
        | none => return none
    | c :: _ =>
      if c.isDigit then some <$> number false
      else if c = '"' ∨ c = '\'' then some <$> string c
      else if c = '\\' ∨ isIdentStart c then some <$> word
      else if s.setting.inType && !s.setting.wholeAngles && s.dialect.isTyped && c == '<' then
        fixed 1 (.binary .lt)
      else if s.setting.inType && !s.setting.wholeAngles && s.dialect.isTyped && c == '>' then
        fixed 1 (.binary .gt)
      else match falseLine? s.afterBreak s.rest with
        | some (k, line) =>
          skipLine k
          skipBlanks
          if line = .comment then Parse.noteForModule start .legacyComment
          else Parse.note start .mergeConflict
          if line = .commonMark then Parse.fail start .mergeConflict
          plain n
        | none =>
          match operator? s.rest with
          | some (k, t) =>
            if t = .backquote then modify fun s => { s with templateStart := start }
            fixed k t
          | none =>
            skip 1
            Parse.fail start (.unexpectedCharacter c)

/-- A token, after blanks were skipped. -/
def inContext : Parse (Option Token) := do
  let s ← get
  let enclosure := s.enclosures.head?
  let fallback : Parse (Option Token) := do
    if enclosure = some .template then
      match s.rest with
      | '\x60' :: _ | '$' :: '\x7b' :: _ =>
        match s.lastToken with
        | some (.template ..) =>
          if s.rest.head? = some '$' then fixed 2 .dollarBrace else fixed 1 .backquote
        | _ => some <$> templateChunk
      | _ => some <$> templateChunk
    else plain (s.limit + 1)
  if s.dialect.hasJsx && !s.setting.inPropertyName && !s.setting.inType then
    match enclosure, s.rest with
    | some .jsxExpr, c :: _ =>
      if c = '<' ∧ s.exprAllowed then fixed 1 .jsxTagStart
      else if c = '<' ∨ c = '\x7b' then plain (s.limit + 1)
      else some <$> jsxText
    | _, c :: r =>
      let inTag := enclosure = some .jsxOpening ∨ enclosure = some .jsxClosing
      if inTag ∧ isIdentStart c then some <$> jsxWord
      else if inTag ∧ c = '>' then fixed 1 .jsxTagEnd
      else if inTag ∧ (c = '\'' ∨ c = '"') then some <$> jsxString c
      else if c = '<' ∧ s.exprAllowed ∧ r.head? ≠ some '!' then
        if (falseLine? s.afterBreak s.rest).isSome then plain (s.limit + 1) else fixed 1 .jsxTagStart
      else fallback
    | _, [] => fallback
  else fallback

/-- The next token, and none at the end of the text. A fault takes the place of the token it was met
in. -/
def next : Parse (Option Lexeme) := do
  let s ← get
  let finish (start : Nat) (text : List Char) (content : Except Fault Token) :
      Parse (Option Lexeme) := do
    modify fun s =>
      match content with
      | .ok t =>
        let after := (Surroundings.mk s.enclosures s.exprAllowed).after s.dialect.hasJsx s.lastToken
          s.afterBreak t
        { s with
          lastToken := some t, enclosures := after.enclosures, exprAllowed := after.exprAllowed }
      | .error _ => { s with lastToken := some .hash, exprAllowed := false }
    let s ← get
    return some ⟨content, ⟨start, s.offset⟩, s.afterBreak, text⟩
  let run (p : Parse (Option Token)) : Parse (Option (Except Fault Token)) := do
    try return (← p).map .ok
    catch e => return some (.error e)
  match s.regexAt with
  | some (start, text) =>
    goTo start text
    match ← run (some <$> regex) with
    | some c => finish s.offset text c
    | none => return none
  | none =>
    match s.isFirst, s.rest with
    | true, '#' :: '!' :: r =>
      let line := r.takeWhile (!isLineEnd ·)
      skip (line.length + 2)
      finish s.offset s.rest (.ok (.shebang (String.ofList line)))
    | _, _ =>
      set { s with afterBreak := s.isFirst, isFirst := false }
      unless s.enclosures.head?.any Enclosure.keepsBlanks do skipBlanks
      let s ← get
      if s.rest.isEmpty then return none
      match ← run inContext with
      | some c => finish s.offset s.rest c
      | none => return none

end StepTrace.Script.Scan
