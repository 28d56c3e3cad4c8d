import StepTrace.Text.Hidden

/-!
Texts and characters between quotation marks as they are shown in messages: what cannot be seen is
written as an escape.
-/
namespace StepTrace.Text

/-- A character between two quotation marks of a kind. -/
def shown (quote c : Char) : List Char :=
  if c = quote then ['\\', c]
  else if c = '\\' then ['\\', '\\']
  else if c = '\n' then ['\\', 'n']
  else if c = '\r' then ['\\', 'r']
  else if c = '\t' then ['\\', 't']
  else if c = '\x00' then ['\\', '0']
  else if isHidden c then '\\' :: 'u' :: '\x7b' :: (Nat.toDigits 16 c.toNat ++ ['\x7d'])
  else [c]

/-- A text in double quotation marks. -/
def debugged (s : String) : String := String.ofList ('"' :: (s.toList.flatMap (shown '"') ++ ['"']))

/-- A character in single quotation marks. -/
def quotedChar (c : Char) : String := String.ofList ('\'' :: (shown '\'' c ++ ['\'']))

end StepTrace.Text
