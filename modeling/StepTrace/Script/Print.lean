import StepTrace.Script.Grammar.Basic
import StepTrace.Script.Grammar.Jsx
import StepTrace.Script.Layout

/-!
The text of a program. A statement stands on its own line, a body is indented by four blanks, and a
literal is written as it was read. Parentheses are those of the tree; none are added.
-/
namespace StepTrace.Script

open Layout

/-! ### Names and literals -/

def isHexDigit (c : Char) : Bool := c.isDigit || ('a' ≤ c ∧ c ≤ 'f') || ('A' ≤ c ∧ c ≤ 'F')

/-- The digits of one half of a pair of UTF-16 units, which no character has. -/
def isHalfCode : List Char → Bool
  | a :: b :: c :: d :: _ =>
    (a == 'D' || a == 'd') && isHexDigit b && !('0' ≤ b ∧ b ≤ '7') && isHexDigit c && isHexDigit d
  | _ => false

/-- The rest of an escape after its backslash, where it stands for one half of a pair of units. -/
def isHalfEscape : List Char → Bool
  | 'u' :: '\x7b' :: r => isHalfCode r
  | 'u' :: r => isHalfCode r
  | _ => false

/-- A text as a string literal: in double quotes, unless it holds more of them than of single ones. An
escape for one half of a pair of units stays an escape, since a text holds it in no other way. -/
def quoted (s : String) : String :=
  let cs := s.toList
  let body := go cs
  if cs.count '\'' < cs.count '"' then "'" ++ String.ofList (escape '\'' body) ++ "'"
  else "\"" ++ String.ofList (escape '"' body) ++ "\""
where
  escape (quote : Char) : List Char → List Char
    | [] => []
    | c :: r => if c = quote then '\\' :: c :: escape quote r else c :: escape quote r
  hex (n : Nat) : List Char := [Nat.digitChar (n / 16), Nat.digitChar (n % 16)]
  go : List Char → List Char
    | [] => []
    | '\\' :: r => if isHalfEscape r then '\\' :: go r else '\\' :: '\\' :: go r
    | c :: r =>
      let rest := go r
      if c = '\x00' then
        if r.head?.any Char.isDigit then ['\\', 'x', '0', '0'] ++ rest else '\\' :: '0' :: rest
      else if c = '\x08' then '\\' :: 'b' :: rest
      else if c = '\x0c' then '\\' :: 'f' :: rest
      else if c = '\n' then '\\' :: 'n' :: rest
      else if c = '\r' then '\\' :: 'r' :: rest
      else if c = '\x0b' then '\\' :: 'v' :: rest
      else if c = '\t' then c :: rest
      else if c.toNat < 32 then '\\' :: 'x' :: hex c.toNat ++ rest
      else if c = '\u2028' then "\\u2028".toList ++ rest
      else if c = '\u2029' then "\\u2029".toList ++ rest
      else if c = '\uFEFF' then "\\uFEFF".toList ++ rest
      else c :: rest

namespace Literal

/-- A literal as it was spelled; one without a spelling is quoted. -/
def text : Literal → String
  | string v raw => if raw.isEmpty then quoted v else raw
  | number raw | bigint raw => raw
  | regex body flags => "/" ++ body ++ "/" ++ flags
  | boolean b => if b then "true" else "false"
  | null => "null"

/-- A number of digits and separators alone takes a dot of its own before a member; one with a needless
zero before it does not. -/
def takesDot : Literal → Bool
  | number raw =>
    let cs := match raw.toList.filter (· ≠ '_') with
      | '-' :: r => r
      | r => r
    cs.all Char.isDigit && (cs.head? != some '0' || cs.length < 2)
  | _ => false

end Literal

namespace VarKind

def text : VarKind → String
  | var => "var" | .let => "let" | const => "const" | .using => "using"
  | awaitUsing => "await using"

end VarKind

/-- What stands between a member and the left of it. -/
def Link.dot : Link → String
  | .optional => "?."
  | _ => "."

/-- What stands before the bracket of an index or the parenthesis of a call. -/
def Link.mark : Link → String
  | .optional => "?."
  | _ => ""

namespace Expr

/-- Two operators that would be read as one need a blank between them. -/
def needsBlank (op : UnaryOp) : Expr → Bool
  | update _ u true _ => (op = .plus && u = .increment) || (op = .minus && u = .decrement)
  | unary _ o _ => (op = .plus && o = .plus) || (op = .minus && o = .minus)
  | _ => false

def takesDot : Expr → Bool
  | literal _ v => v.takesDot
  | _ => false

end Expr

def JsxName.closing (name : Option JsxName) : String := (name.map JsxName.text).getD ""

namespace ImportName

def isNamed : ImportName → Bool
  | named .. => true
  | _ => false

def text : ImportName → String
  | default l => l.text
  | .namespace l => "* as " ++ l.text
  | named _ none l => l.text
  | named _ (some i) l => i ++ " as " ++ l.text

end ImportName

namespace ExportName

def isNamed : ExportName → Bool
  | named .. => true
  | _ => false

def text : ExportName → String
  | default e => e.text
  | .namespace e => "* as " ++ e
  | named _ o none => o.text
  | named _ o (some e) => o.text ++ " as " ++ e

end ExportName

/-- Names in braces. -/
def braced (names : List String) : String :=
  if names.isEmpty then "\x7b \x7d" else "\x7b " ++ String.intercalate ", " names ++ " \x7d"

namespace ModuleSource

def layout (s : ModuleSource) : Layout :=
  word s.raw ++ match s.attributes with
    | none => []
    | some [] => word " with \x7b\x7d"
    | some as_ =>
      word " with \x7b" ++ lines "," (as_.map fun a => word (a.key ++ ": " ++ a.value)) ++ word "\x7d"

end ModuleSource

/-- What an import brings in, up to the word before the module. -/
def importClause (phase : ImportPhase) (names : List ImportName) : String :=
  let single := (names.filter (!·.isNamed)).map ImportName.text
  let several := (names.filter ImportName.isNamed).map ImportName.text
  let first := "import " ++ (phase.word?.map (· ++ " ")).getD ""
  if names.isEmpty then first
  else
    let parts := if several.isEmpty then single else single ++ [braced several]
    first ++ String.intercalate ", " parts ++ " from "

/-- What an export list gives out. -/
def exportClause (names : List ExportName) : String :=
  let single := (names.filter (!·.isNamed)).map ExportName.text
  let several := (names.filter ExportName.isNamed).map ExportName.text
  let parts := if several.isEmpty && !single.isEmpty then single else single ++ [braced several]
  "export " ++ String.intercalate ", " parts

/-! ### Trees -/

/-- The chunks of a template with what stands in its holes. -/
def templateLayout : List String → List Layout → Layout
  | c :: cs, l :: ls => word (c ++ "$\x7b") ++ l ++ word "\x7d" ++ templateLayout cs ls
  | cs, _ => word (String.join cs)

/-- Statements in braces. -/
def blockLayout : List Layout → Layout
  | [] => word "\x7b\x7d"
  | ls => word "\x7b" ++ lines "" ls ++ word "\x7d"

/-- Members of an object literal in braces. -/
def objectLayout : List Layout → Layout
  | [] => word "\x7b\x7d"
  | ls => word "\x7b" ++ lines "," ls ++ word "\x7d"

/-- The members of a pattern in braces. -/
def objectPatternLayout : List Layout → Layout
  | [] => word "\x7b\x7d"
  | ls => word "\x7b " ++ commas ls ++ word " \x7d"

/-- Elements of an array literal. An element that is left out at the end keeps its comma. -/
def arrayLayout (endsEmpty : Bool) : List Layout → Layout
  | [] => word "[]"
  | ls =>
    let ls := if endsEmpty then ls.dropLast ++ [(ls.getLast?.getD []) ++ word ", "] else ls
    word "[" ++ lines "," ls ++ word "]"

def decoratorsLayout (ls : List Layout) : Layout :=
  ls.flatMap fun l => word "@" ++ l ++ [.line]

/-- The words before the key of a method. -/
def methodWords (kind : MethodKind) (isAsync isGenerator : Bool) : String :=
  match kind with
  | .getter => "get "
  | .setter => "set "
  | .method => (if isAsync then "async " else "") ++ (if isGenerator then "*" else "")

def staticWord (isStatic : Bool) : String := if isStatic then "static " else ""

mutual

def Expr.layout : Expr → Layout
  | .this _ => word "this"
  | .superRef _ => word "super"
  | .importRef _ => word "import"
  | .ident n => word n.text
  | .literal _ v => word v.text
  | .template _ chunks parts => word "`" ++ templateLayout chunks (Expr.layouts parts) ++ word "`"
  | .tagged _ tag chunks parts =>
    tag.layout ++ word "`" ++ templateLayout chunks (Expr.layouts parts) ++ word "`"
  | .array _ items =>
    arrayLayout (items.getLast?.any fun | .elision => true | _ => false) (Expr.layouts items)
  | .object _ members => objectLayout (Property.layouts members)
  | .func name f =>
    word ((if f.isAsync then "async " else "") ++ "function" ++ (if f.isGenerator then "*" else "") ++
      (match name with | some n => " " ++ n.text | none => "")) ++ f.tail
  | .classExpr name c => c.layout name
  | .arrow _ isAsync params body =>
    word ((if isAsync then "async " else "") ++ "(") ++ commas (Pat.layouts params) ++ word ")=>" ++
      body.layout
  | .unary _ op arg =>
    word (op.text ++ if op.isWord || arg.needsBlank op then " " else "") ++ arg.layout
  | .update _ op isPrefix arg =>
    if isPrefix then word op.text ++ arg.layout else arg.layout ++ word op.text
  | .binary _ op left right => left.layout ++ word (" " ++ op.text ++ " ") ++ right.layout
  | .assign _ op target value => target.layout ++ word (" " ++ op.text ++ " ") ++ value.layout
  | .cond _ test yes no => test.layout ++ word " ? " ++ yes.layout ++ word " : " ++ no.layout
  | .member _ link obj name =>
    obj.layout ++ word ((if link = .plain && obj.takesDot then "." else "") ++ link.dot ++ name.text)
  | .index _ link obj key => obj.layout ++ word (link.mark ++ "[") ++ key.layout ++ word "]"
  | .call _ link callee args =>
    callee.layout ++ word (link.mark ++ "(") ++ commas (Expr.layouts args) ++ word ")"
  | .construct _ callee hasArgs args =>
    word "new " ++ callee.layout ++
      (if hasArgs then word "(" ++ commas (Expr.layouts args) ++ word ")" else [])
  | .sequence _ items => commas (Expr.layouts items)
  | .paren _ e => word "(" ++ e.layout ++ word ")"
  | .await _ arg => word "await " ++ arg.layout
  | .yield _ isDelegate arg =>
    match arg with
    | none => word (if isDelegate then "yield*" else "yield")
    | some e => word (if isDelegate then "yield* " else "yield ") ++ e.layout
  | .metaProperty _ .newTarget => word "new.target"
  | .metaProperty _ .importMeta => word "import.meta"
  | .spread _ e => word "..." ++ e.layout
  | .elision => []
  | .element _ name isClosed attributes children =>
    word ("<" ++ JsxName.closing name) ++ (JsxPart.layouts attributes).flatMap (word " " ++ ·) ++
      if isClosed then word "/>"
      else word ">" ++ (JsxPart.layouts children).flatten ++ word ("</" ++ JsxName.closing name ++ ">")
  | .ascribed _ _ e => e.layout

def Expr.layouts : List Expr → List Layout
  | [] => []
  | e :: r => e.layout :: Expr.layouts r

def JsxPart.layout : JsxPart → Layout
  | .attribute name none => word name
  | .attribute name (some v) => word (name ++ "=") ++ v.layout
  | .spread e => word "\x7b..." ++ e.layout ++ word "\x7d"
  | .text v => word v
  | .container none => word "\x7b\x7d"
  | .container (some e) => word "\x7b" ++ e.layout ++ word "\x7d"
  | .child e => e.layout

def JsxPart.layouts : List JsxPart → List Layout
  | [] => []
  | p :: r => p.layout :: JsxPart.layouts r

def Property.layout : Property → Layout
  | .shorthand n none => word n.text
  | .shorthand n (some e) => word (n.text ++ "=") ++ e.layout
  | .keyValue k e => k.layout ++ word ": " ++ e.layout
  | .method k f =>
    word (methodWords .method f.isAsync f.isGenerator) ++ k.layout ++ word " " ++ f.tail
  | .getter _ k b => word "get " ++ k.layout ++ word " () " ++ b.layout
  | .setter _ k q b => word "set " ++ k.layout ++ word " (" ++ q.layout ++ word ")" ++ b.layout
  | .spread _ e => word "..." ++ e.layout

def Property.layouts : List Property → List Layout
  | [] => []
  | p :: r => p.layout :: Property.layouts r

def Key.layout : Key → Layout
  | .name n => word n.text
  | .literal _ v => word v.text
  | .computed _ e => word "[" ++ e.layout ++ word "]"

def Pat.layout : Pat → Layout
  | .ident n => word n.text
  | .elision => []
  | .array _ items => word "[" ++ commas (Pat.layoutsToLast items) ++ word "]"
  | .object _ members => objectPatternLayout (PatProperty.layouts members)
  | .rest _ q => word "..." ++ q.layout
  | .withDefault _ q e => q.layout ++ word " = " ++ e.layout
  | .expr e => e.layout

def Pat.layouts : List Pat → List Layout
  | [] => []
  | q :: r => q.layout :: Pat.layouts r

/-- The elements of an array pattern up to the last that is not left out. -/
def Pat.layoutsToLast : List Pat → List Layout
  | [] => []
  | .elision :: r =>
    match Pat.layoutsToLast r with
    | [] => []
    | ls => [] :: ls
  | q :: r => q.layout :: Pat.layoutsToLast r

def PatProperty.layout : PatProperty → Layout
  | .keyValue k q => k.layout ++ word ": " ++ q.layout
  | .shorthand _ n none => word n.text
  | .shorthand _ n (some e) => word (n.text ++ " = ") ++ e.layout
  | .rest _ q => word "..." ++ q.layout

def PatProperty.layouts : List PatProperty → List Layout
  | [] => []
  | p :: r => p.layout :: PatProperty.layouts r

/-- The decorators of a method. -/
def Function.decoratorLines : Function → Layout
  | .mk _ _ _ decorators _ _ => decoratorsLayout (Expr.layouts decorators)

/-- Parameters and body of a function. -/
def Function.tail : Function → Layout
  | .mk _ _ _ _ params body =>
    word "(" ++ commas (Param.layouts params) ++ word ")" ++
      match body with
      | none => word ";"
      | some b => word " " ++ b.layout

def Param.layout : Param → Layout
  | .mk _ decorators _ q =>
    (if decorators.isEmpty then [] else .line :: decoratorsLayout (Expr.layouts decorators)) ++ q.layout

def Param.layouts : List Param → List Layout
  | [] => []
  | p :: r => p.layout :: Param.layouts r

/-- A value in the place of a body is indented once more. -/
def ArrowBody.layout : ArrowBody → Layout
  | .block b => b.layout
  | .expr e => .indent :: e.layout ++ [.dedent]

def Block.layout : Block → Layout
  | .mk _ stmts => blockLayout (Stmt.layouts stmts)

/-- A class with its name. -/
def Class.layout (name : Option Ident) : Class → Layout
  | .mk _ decorators members parent =>
    decoratorsLayout (Expr.layouts decorators) ++
      word ("class" ++ (match name with | some n => " " ++ n.text | none => "")) ++
      (match parent with
        | none => []
        | some e => word " extends " ++ e.layout) ++
      word " \x7b" ++ lines "" (ClassMember.layouts members) ++ word "\x7d"

/-- A class whose decorators stand before the words that export it. -/
def Class.exported (name : Ident) : Class → Layout
  | .mk _ decorators members parent =>
    decoratorsLayout (Expr.layouts decorators) ++ word ("export class " ++ name.text) ++
      (match parent with
        | none => []
        | some e => word " extends " ++ e.layout) ++
      word " \x7b" ++ lines "" (ClassMember.layouts members) ++ word "\x7d"

def ClassMember.layout : ClassMember → Layout
  | .ctor _ _ params body =>
    word "constructor(" ++ commas (Param.layouts params) ++ word ")" ++
      match body with
      | none => word ";"
      | some b => b.layout
  | .method _ k kind isStatic _ f =>
    f.decoratorLines ++
      word (staticWord isStatic ++ methodWords kind f.isAsync f.isGenerator) ++ k.layout ++ f.tail
  | .property _ k isStatic _ isAccessor value decorators =>
    decoratorsLayout (Expr.layouts decorators) ++
      word (staticWord isStatic ++ if isAccessor then "accessor " else "") ++ k.layout ++
      (match value with
        | none => word ";"
        | some e => word " = " ++ e.layout ++ word ";")
  | .staticBlock _ b => word "static" ++ b.layout
  | .empty _ => word ";"

def ClassMember.layouts : List ClassMember → List Layout
  | [] => []
  | m :: r => m.layout :: ClassMember.layouts r

/-- A statement with the end of its line. A block leaves its line open. -/
def Stmt.layout : Stmt → Layout
  | .block b => b.layout
  | .empty _ => [.text ";", .line]
  | .debugger _ => [.text "debugger;", .line]
  | .withObject _ obj b => word "with (" ++ obj.layout ++ word ")" ++ b.layout ++ [.line]
  | .returnStmt _ none => [.text "return;", .line]
  | .returnStmt _ (some e) => word "return " ++ e.layout ++ [.text ";", .line]
  | .labeled _ l s => word (l.text ++ ": ") ++ s.layout ++ [.line]
  | .breakTo _ l =>
    [.text ("break" ++ (match l with | some n => " " ++ n.text | none => "") ++ ";"), .line]
  | .continueTo _ l =>
    [.text ("continue" ++ (match l with | some n => " " ++ n.text | none => "") ++ ";"), .line]
  | .ifElse _ test yes no =>
    word "if (" ++ test.layout ++ word ") " ++ yes.layout ++
      (match no with
        | none => []
        | some s => word " else " ++ s.layout) ++ [.line]
  | .switchOn _ subject cases =>
    word "switch(" ++ subject.layout ++ word ")\x7b" ++ lines "" (SwitchCase.layouts cases) ++
      [.text "\x7d", .line]
  | .throwStmt _ e => word "throw " ++ e.layout ++ [.text ";", .line]
  | .tryStmt _ b handler finalizer =>
    word "try " ++ b.layout ++
      (match handler with
        | none => []
        | some c => word " catch " ++ c.layout) ++
      (match finalizer with
        | none => []
        | some f => word " finally" ++ f.layout) ++ [.line]
  | .whileLoop _ test s => word "while(" ++ test.layout ++ word ")" ++ s.layout ++ [.line]
  | .doWhileLoop _ test s =>
    word "do " ++ s.layout ++ word "while (" ++ test.layout ++ [.text ")", .line]
  | .forLoop _ init test update s =>
    word "for(" ++ init.layout ++ word ";" ++
      (match test with | none => [] | some e => word " " ++ e.layout) ++ word ";" ++
      (match update with | none => [] | some e => word " " ++ e.layout) ++ word ")" ++ s.layout ++
      [.line]
  | .forIn _ h subject s =>
    word "for(" ++ h.layout ++ word " in " ++ subject.layout ++ word ")" ++ s.layout ++ [.line]
  | .forOf _ isAwait h subject s =>
    word (if isAwait then "for await (" else "for (") ++ h.layout ++ word " of " ++ subject.layout ++
      word ")" ++ s.layout ++ [.line]
  | .varDecl d =>
    d.layout ++ [.text (if d.kind = .using || d.kind = .awaitUsing then "" else ";"), .line]
  | .func n f =>
    word ((if f.isAsync then "async " else "") ++ "function" ++ (if f.isGenerator then "* " else " ") ++
      n.text) ++ f.tail ++ [.line]
  | .classDecl n c => c.layout (some n) ++ [.line]
  | .expr _ e => e.layout ++ [.text ";", .line]
  | .importNames _ _ names source =>
    word (importClause source.phase names) ++ source.layout ++ [.text ";", .line]
  | .exportDecl _ d =>
    match d with
    | .classDecl n c => c.exported n ++ [.line]
    | d => word "export " ++ d.layout
  | .exportNames _ _ names source =>
    word (exportClause names) ++
      (match source with | none => [] | some m => word " from " ++ m.layout) ++ [.text ";", .line]
  | .exportAll _ _ source => word "export * from " ++ source.layout ++ [.text ";", .line]
  | .exportDefault _ e => word "export default " ++ e.layout ++ [.text ";", .line]
  | .exportDefaultFunc _ name f =>
    word ("export default " ++ (if f.isAsync then "async " else "") ++ "function" ++
      (if f.isGenerator then "*" else "") ++ (match name with | some n => " " ++ n.text | none => "")) ++
      f.tail ++ [.line]
  | .exportDefaultClass _ name c => word "export default " ++ c.layout name ++ [.line]
  | .typed _ => []

def Stmt.layouts : List Stmt → List Layout
  | [] => []
  | s :: r => s.layout :: Stmt.layouts r

def VarDecl.layout : VarDecl → Layout
  | .mk _ kind _ items => word (kind.text ++ " ") ++ commas (Declarator.layouts items)

def Declarator.layout : Declarator → Layout
  | .mk _ target none => target.layout
  | .mk _ target (some e) => target.layout ++ word " = " ++ e.layout

def Declarator.layouts : List Declarator → List Layout
  | [] => []
  | d :: r => d.layout :: Declarator.layouts r

def SwitchCase.layout : SwitchCase → Layout
  | .mk _ test stmts =>
    (match test with
      | none => word "default:"
      | some e => word "case " ++ e.layout ++ word ":") ++ lines "" (Stmt.layouts stmts)

def SwitchCase.layouts : List SwitchCase → List Layout
  | [] => []
  | c :: r => c.layout :: SwitchCase.layouts r

def Catch.layout : Catch → Layout
  | .mk _ none b => word " " ++ b.layout
  | .mk _ (some q) b => word "(" ++ q.layout ++ word ") " ++ b.layout

def LoopHead.layout : LoopHead → Layout
  | .none => []
  | .varDecl d => d.layout
  | .pat q => q.layout
  | .expr e => e.layout

end

namespace Program

def layout (p : Program) : Layout :=
  (match p.shebang with
    | none => []
    | some s => [.text ("#!" ++ s), .line]) ++ (Stmt.layouts p.body).flatten

/-- The text of a program. -/
def text (p : Program) : String := p.layout.render

end Program

end StepTrace.Script
