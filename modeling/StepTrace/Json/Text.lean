import StepTrace.Decimal
import StepTrace.Json.Basic
import StepTrace.Json.Quoted

/-!
The two forms in which JSON is written: compact, without blanks, and indented, with one item or member
to a line.
-/
namespace StepTrace.Json

def intChars : Int → List Char
  | .ofNat n => Decimal.digitChars n
  | .negSucc n => '-' :: Decimal.digitChars (n + 1)

mutual

def compact : Json → List Char
  | .null => ['n', 'u', 'l', 'l']
  | .bool true => ['t', 'r', 'u', 'e']
  | .bool false => ['f', 'a', 'l', 's', 'e']
  | .int n => intChars n
  | .float x => (Decimal.ofFloat x).pointedOrScaled.toList
  | .text s => Quoted.write s
  | .array items => '[' :: (compactItems items ++ [']'])
  | .object members => '\x7b' :: (compactMembers members ++ ['\x7d'])

def compactItems : List Json → List Char
  | [] => []
  | [v] => v.compact
  | v :: w :: r => v.compact ++ ',' :: compactItems (w :: r)

def compactMembers : List (String × Json) → List Char
  | [] => []
  | [(name, v)] => Quoted.write name ++ ':' :: v.compact
  | (name, v) :: m :: r => Quoted.write name ++ ':' :: (v.compact ++ ',' :: compactMembers (m :: r))

end

/-- The start of a line at a depth. -/
def lineStart (depth : Nat) : List Char := '\n' :: List.replicate (2 * depth) ' '

mutual

/-- The indented form of a value at a depth. -/
def indented (depth : Nat) : Json → List Char
  | .array [] => ['[', ']']
  | .array (v :: r) => '[' :: (indentedItems (depth + 1) (v :: r) ++ (lineStart depth ++ [']']))
  | .object [] => ['\x7b', '\x7d']
  | .object (m :: r) =>
    '\x7b' :: (indentedMembers (depth + 1) (m :: r) ++ (lineStart depth ++ ['\x7d']))
  | .null => ['n', 'u', 'l', 'l']
  | .bool true => ['t', 'r', 'u', 'e']
  | .bool false => ['f', 'a', 'l', 's', 'e']
  | .int n => intChars n
  | .float x => (Decimal.ofFloat x).pointedOrScaled.toList
  | .text s => Quoted.write s

def indentedItems (depth : Nat) : List Json → List Char
  | [] => []
  | [v] => lineStart depth ++ v.indented depth
  | v :: w :: r => lineStart depth ++ (v.indented depth ++ ',' :: indentedItems depth (w :: r))

def indentedMembers (depth : Nat) : List (String × Json) → List Char
  | [] => []
  | [(name, v)] => lineStart depth ++ (Quoted.write name ++ ':' :: ' ' :: v.indented depth)
  | (name, v) :: m :: r =>
    lineStart depth ++ (Quoted.write name ++ ':' :: ' ' ::
      (v.indented depth ++ ',' :: indentedMembers depth (m :: r)))

end

def compactText (v : Json) : String := String.ofList v.compact

def indentedText (v : Json) : String := String.ofList (v.indented 0)

end StepTrace.Json
