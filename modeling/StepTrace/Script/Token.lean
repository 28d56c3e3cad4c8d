import StepTrace.Script.Fault
import StepTrace.Script.Operator

/-!
Tokens of JavaScript and TypeScript: keywords, punctuation, literals with their spelling, and the
pieces of JSX. A contextual word such as `async` or `of` is an identifier here. A word that starts with
an escape is a token of its own kind, since it is never more than an identifier.
-/
namespace StepTrace.Script

inductive Keyword where
  | awaitKw | breakKw | caseKw | catchKw | continueKw | debuggerKw | defaultKw | doKw | elseKw
  | finallyKw | forKw | functionKw | ifKw | returnKw | switchKw | throwKw | tryKw | varKw | letKw
  | constKw | whileKw | withKw | newKw | thisKw | superKw | classKw | extendsKw | exportKw
  | importKw | yieldKw | inKw | instanceofKw | typeofKw | voidKw | deleteKw
deriving DecidableEq, Repr, Inhabited

namespace Keyword

def text : Keyword → String
  | awaitKw => "await" | breakKw => "break" | caseKw => "case" | catchKw => "catch"
  | continueKw => "continue" | debuggerKw => "debugger" | defaultKw => "default" | doKw => "do"
  | elseKw => "else" | finallyKw => "finally" | forKw => "for" | functionKw => "function"
  | ifKw => "if" | returnKw => "return" | switchKw => "switch" | throwKw => "throw"
  | tryKw => "try" | varKw => "var" | letKw => "let" | constKw => "const" | whileKw => "while"
  | withKw => "with" | newKw => "new" | thisKw => "this" | superKw => "super"
  | classKw => "class" | extendsKw => "extends" | exportKw => "export" | importKw => "import"
  | yieldKw => "yield" | inKw => "in" | instanceofKw => "instanceof" | typeofKw => "typeof"
  | voidKw => "void" | deleteKw => "delete"

/-- Every keyword, in the order of the type. -/
def all : List Keyword :=
  [awaitKw, breakKw, caseKw, catchKw, continueKw, debuggerKw, defaultKw, doKw, elseKw,
    finallyKw, forKw, functionKw, ifKw, returnKw, switchKw, throwKw, tryKw, varKw, letKw,
    constKw, whileKw, withKw, newKw, thisKw, superKw, classKw, extendsKw, exportKw, importKw,
    yieldKw, inKw, instanceofKw, typeofKw, voidKw, deleteKw]

def ofText? (s : String) : Option Keyword :=
  all.find? fun k => k.text == s

/-- An expression may start directly after these. -/
def beforeExpr : Keyword → Bool
  | awaitKw | caseKw | defaultKw | doKw | elseKw | returnKw | throwKw | newKw | extendsKw
  | yieldKw | inKw | instanceofKw | typeofKw | voidKw | deleteKw => true
  | _ => false

end Keyword

inductive Token where
  | ident (text : String)
  /-- A word whose first character is an escape. -/
  | escaped (text : String)
  | keyword (k : Keyword)
  | null
  | true
  | false
  | arrow | hash | atSign | dot | ellipsis | bang
  | lparen | rparen | lbracket | rbracket | lbrace | rbrace
  | semi | comma | backquote | colon | dollarBrace | question
  | plusPlus | minusMinus | tilde
  | binary (op : BinaryOp)
  | assign (op : AssignOp)
  | string (value raw : String)
  | number (raw : String)
  | bigint (raw : String)
  | regex (body flags : String)
  | template (raw : String) (fault : Option Fault)
  | jsxName (text : String)
  | jsxText (value raw : String)
  | jsxTagStart
  | jsxTagEnd
  | shebang (text : String)
deriving DecidableEq, Repr, Inhabited

namespace Token

/-- The spelling of a word, be it an identifier, a keyword or a literal word. -/
def word? : Token → Option String
  | ident s | escaped s => some s
  | keyword k => some k.text
  | null => some "null"
  | true => some "true"
  | false => some "false"
  | _ => none

def isWord (t : Token) : Bool := t.word?.isSome

/-- An expression may start directly after this token. -/
def beforeExpr : Token → Bool
  | keyword k => k.beforeExpr
  | arrow | ellipsis | bang | lparen | lbrace | lbracket | semi | comma | colon | dollarBrace
  | question | plusPlus | minusMinus | tilde | binary _ | assign _ | jsxText _ _ => Bool.true
  | _ => Bool.false

/-- The spelling of a token of fixed spelling. -/
def fixedText : Token → String
  | keyword k => k.text
  | null => "null" | true => "true" | false => "false"
  | arrow => "=>" | hash => "#" | atSign => "@" | dot => "." | ellipsis => "..." | bang => "!"
  | lparen => "(" | rparen => ")" | lbracket => "[" | rbracket => "]"
  | lbrace => "\x7b" | rbrace => "\x7d"
  | semi => ";" | comma => "," | backquote => "`" | colon => ":" | dollarBrace => "$\x7b"
  | question => "?" | plusPlus => "++" | minusMinus => "--" | tilde => "~"
  | binary op => op.text
  | assign op => op.text
  | jsxTagStart => "< (jsx tag start)"
  | jsxTagEnd => "> (jsx tag end)"
  | shebang _ => "#!"
  | ident s | escaped s => s
  | _ => ""

/-- A token as a message shows it, with the value and the spelling of a literal. -/
def describe (value : String → String) : Token → String
  | .string v raw => "string literal (" ++ v ++ ", " ++ raw ++ ")"
  | .number raw => "numeric literal (" ++ value raw ++ ", " ++ raw ++ ")"
  | .bigint raw => "bigint literal (" ++ value raw ++ ", " ++ raw ++ ")"
  | .regex body flags => "regexp literal (" ++ body ++ ", " ++ flags ++ ")"
  | .template raw _ => "template (" ++ raw ++ ")"
  | .jsxName s => "jsx name (" ++ s ++ ")"
  | .jsxText _ raw => "jsx text (" ++ raw ++ ")"
  | t => t.fixedText

end Token

end StepTrace.Script
