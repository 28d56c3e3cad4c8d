import StepTrace.Toml.Scalar

/-!
Reading TOML: lines with a key and a value, and headers that say into which table the lines after them
go. There is one outcome for every fault of a text: that it cannot be read.
-/
namespace StepTrace.Toml

def isBlank (c : Char) : Bool := c == ' ' || c == '\t'

def skipBlanks (cs : List Char) : List Char := cs.dropWhile isBlank

/-- Characters that may stand in a line of text; control characters other than a tab may not. -/
def isTextChar (c : Char) : Bool := c == '\t' || (0x20 ≤ c.toNat && c.toNat ≠ 0x7F)

/-- What follows the end of a line, if the text starts with one. -/
def lineEnd? : List Char → Option (List Char)
  | '\n' :: r => some r
  | '\r' :: '\n' :: r => some r
  | _ => none

/-- What follows a line of which only blanks and a comment are left. -/
def endLine? (cs : List Char) : Option (List Char) :=
  let r :=
    match skipBlanks cs with
    | '#' :: r => r.dropWhile isTextChar
    | r => r
  if r.isEmpty then some [] else lineEnd? r

/-- Skips blanks, ends of lines and comments. -/
def skipFiller (inComment : Bool) : List Char → Option (List Char)
  | [] => some []
  | '\n' :: r => skipFiller false r
  | '\r' :: '\n' :: r => skipFiller false r
  | c :: r =>
    if inComment then if isTextChar c then skipFiller true r else none
    else if isBlank c then skipFiller false r
    else if c = '#' then skipFiller true r
    else some (c :: r)

/-! ### Texts -/

def hexNumber? (cs : List Char) : Option Nat :=
  (cs.mapM hexDigit?).map (numberOf 16)

/-- The character of a number, if there is one. -/
def scalarChar? (n : Nat) : Option Char := if n.isValidChar then some (Char.ofNat n) else none

def escaped? : Char → Option Char
  | 'b' => some '\x08'
  | 't' => some '\t'
  | 'n' => some '\n'
  | 'f' => some '\x0c'
  | 'r' => some '\r'
  | '"' => some '"'
  | '\\' => some '\\'
  | _ => none

/-- Puts a character in front of a text that was read. -/
def prepend (c : Char) : Option (List Char × List Char) → Option (List Char × List Char) :=
  Option.map fun (s, r) => (c :: s, r)

/-- The text up to a quotation mark. -/
def basic : List Char → Option (List Char × List Char)
  | [] => none
  | '"' :: r => some ([], r)
  | '\\' :: 'u' :: a :: b :: c :: d :: r => do
    let x ← scalarChar? (← hexNumber? [a, b, c, d])
    prepend x (basic r)
  | '\\' :: 'U' :: a :: b :: c :: d :: e :: f :: g :: h :: r => do
    let x ← scalarChar? (← hexNumber? [a, b, c, d, e, f, g, h])
    prepend x (basic r)
  | '\\' :: e :: r => do
    let x ← escaped? e
    prepend x (basic r)
  | c :: r => if isTextChar c then prepend c (basic r) else none

/-- The text up to an apostrophe. -/
def literal : List Char → Option (List Char × List Char)
  | [] => none
  | '\'' :: r => some ([], r)
  | c :: r => if isTextChar c then prepend c (literal r) else none

/-- The text up to three quotation marks; up to two more may stand before them. After a backslash at the
end of a line, blanks and ends of lines are `skipping`. -/
def basicLines (skipping : Bool) : List Char → Option (List Char × List Char)
  | [] => none
  | '"' :: '"' :: '"' :: '"' :: '"' :: r => some (['"', '"'], r)
  | '"' :: '"' :: '"' :: '"' :: r => some (['"'], r)
  | '"' :: '"' :: '"' :: r => some ([], r)
  | '\\' :: 'u' :: a :: b :: c :: d :: r => do
    let x ← scalarChar? (← hexNumber? [a, b, c, d])
    prepend x (basicLines false r)
  | '\\' :: 'U' :: a :: b :: c :: d :: e :: f :: g :: h :: r => do
    let x ← scalarChar? (← hexNumber? [a, b, c, d, e, f, g, h])
    prepend x (basicLines false r)
  | '\\' :: e :: r =>
    match escaped? e with
    | some x => prepend x (basicLines false r)
    | none => if (lineEnd? (skipBlanks (e :: r))).isSome then basicLines true (e :: r) else none
  | '\r' :: '\n' :: r => if skipping then basicLines true r else prepend '\n' (basicLines false r)
  | c :: r =>
    if skipping && (isBlank c || c = '\n') then basicLines true r
    else if isTextChar c || c = '\n' then prepend c (basicLines false r)
    else none

/-- The text up to three apostrophes; up to two more may stand before them. -/
def literalLines : List Char → Option (List Char × List Char)
  | [] => none
  | '\'' :: '\'' :: '\'' :: '\'' :: '\'' :: r => some (['\'', '\''], r)
  | '\'' :: '\'' :: '\'' :: '\'' :: r => some (['\''], r)
  | '\'' :: '\'' :: '\'' :: r => some ([], r)
  | '\r' :: '\n' :: r => prepend '\n' (literalLines r)
  | c :: r => if isTextChar c || c = '\n' then prepend c (literalLines r) else none

/-- Drops the end of a line that follows the opening marks of a text of several lines. -/
def dropLineEnd (cs : List Char) : List Char := (lineEnd? cs).getD cs

def text? : List Char → Option (List Char × List Char)
  | '"' :: '"' :: '"' :: r => basicLines false (dropLineEnd r)
  | '"' :: r => basic r
  | '\'' :: '\'' :: '\'' :: r => literalLines (dropLineEnd r)
  | '\'' :: r => literal r
  | _ => none

/-! ### Keys -/

def isBareChar (c : Char) : Bool := c.isAlphanum || c == '_' || c == '-'

/-- One name of a key. -/
def name? : List Char → Option (String × List Char)
  | '"' :: r => (basic r).map fun (s, r) => (String.ofList s, r)
  | '\'' :: r => (literal r).map fun (s, r) => (String.ofList s, r)
  | cs =>
    let s := cs.takeWhile isBareChar
    if s.isEmpty then none else some (String.ofList s, cs.dropWhile isBareChar)

/-- Names between dots; blanks may stand around each. -/
def names? : Nat → List Char → Option (List String × List Char)
  | 0, _ => none
  | fuel + 1, cs => do
    let (n, r) ← name? (skipBlanks cs)
    match skipBlanks r with
    | '.' :: r =>
      let (ns, r) ← names? fuel r
      return (n :: ns, r)
    | r => return ([n], r)

/-- Tables, lists and the names of a key are nested no deeper than this. -/
def depthLimit : Nat := 80

def key? (cs : List Char) : Option (List String × List Char) := do
  let (ns, r) ← names? cs.length cs
  if depthLimit ≤ ns.length then none else return (ns, r)

/-! ### Values -/

def isWordChar (c : Char) : Bool :=
  c.isAlphanum || c == '_' || c == '-' || c == '+' || c == '.' || c == ':'

/-- The word that a text starts with. A date may have a time after one blank. -/
def word (cs : List Char) : List Char × List Char :=
  let w := cs.takeWhile isWordChar
  match cs.dropWhile isWordChar with
  | ' ' :: c :: r =>
    if isDate w && c.isDigit then
      (w ++ ' ' :: (c :: r).takeWhile isWordChar, (c :: r).dropWhile isWordChar)
    else (w, ' ' :: c :: r)
  | r => (w, r)

mutual

/-- A value. The depth says how many containers may still be opened, and the fuel bounds the number of
steps. -/
def value? : Nat → Nat → List Char → Option (Item × List Char)
  | 0, _, _ => none
  | fuel + 1, depth, cs =>
    match cs with
    | '[' :: r => if depth = 0 then none else items? fuel (depth - 1) [] r
    | '\x7b' :: r =>
      if depth = 0 then none
      else
        match skipBlanks r with
        | '\x7d' :: r => some (.inlined [], r)
        | r => pairs? fuel (depth - 1) [] r
    | cs =>
      match text? cs with
      | some (s, r) => some (.text (String.ofList s), r)
      | none =>
        let (w, r) := word cs
        (scalar? w).map fun v => (v, r)

/-- The items of a list up to its closing bracket, after those that were read. -/
def items? : Nat → Nat → List Item → List Char → Option (Item × List Char)
  | 0, _, _, _ => none
  | fuel + 1, depth, before, cs => do
    match ← skipFiller false cs with
    | ']' :: r => return (.array before, r)
    | r =>
      let (v, r) ← value? fuel depth r
      match ← skipFiller false r with
      | ',' :: r => items? fuel depth (before ++ [v]) r
      | ']' :: r => return (.array (before ++ [v]), r)
      | _ => none

/-- The keys and values of a table in one line up to its closing bracket. -/
def pairs? : Nat → Nat → List (List String × Item) → List Char → Option (Item × List Char)
  | 0, _, _, _ => none
  | fuel + 1, depth, before, cs => do
    let (k, r) ← key? cs
    match r with
    | '=' :: r =>
      let (v, r) ← value? fuel depth (skipBlanks r)
      match skipBlanks r with
      | ',' :: r => pairs? fuel depth (before ++ [(k, v)]) r
      | '\x7d' :: r => return (← Item.inlinedOf? (before ++ [(k, v)]), r)
      | _ => none
    | _ => none

end

/-! ### Lines -/

/-- A header between brackets. -/
def header? (r : List Char) : Option (List String × List Char) := do
  let (path, r) ← key? r
  match r with
  | ']' :: r => return (path, r)
  | _ => none

/-- Reads line by line into `root`; lines with a value go into the table at `path`. -/
def lines? : Nat → Item → List String → List Char → Option Item
  | 0, _, _, _ => none
  | fuel + 1, root, path, cs => do
    match skipBlanks cs with
    | [] => return root
    | '\n' :: r => lines? fuel root path r
    | '\r' :: '\n' :: r => lines? fuel root path r
    | '#' :: r => lines? fuel root path (← endLine? ('#' :: r))
    | '[' :: '[' :: r =>
      let (path, r) ← header? r
      match r with
      | ']' :: r => lines? fuel (← root.openNext path) path (← endLine? r)
      | _ => none
    | '[' :: r =>
      let (path, r) ← header? r
      lines? fuel (← root.openTable path) path (← endLine? r)
    | r =>
      let (k, r) ← key? r
      match r with
      | '=' :: r =>
        let (v, r) ← value? (2 * r.length + 2) (depthLimit - 1) (skipBlanks r)
        lines? fuel (← root.within false path (Item.insert k v)) path (← endLine? r)
      | _ => none

/-- The table that a text stands for. -/
def ofText? (s : String) : Option Item :=
  let cs :=
    match s.toList with
    | '\uFEFF' :: r => r
    | r => r
  lines? (cs.length + 1) .empty [] cs

end StepTrace.Toml
