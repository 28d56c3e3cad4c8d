import StepTrace.Script.Reader

/-!
How a token changes what encloses the text after it, and whether an expression may start there. The
scanner needs both to tell a JSX tag from a comparison and to find the end of a hole in a template.
-/
namespace StepTrace.Script.Scan

/-- What encloses a place, innermost first, and whether an expression may start there. -/
structure Surroundings where
  enclosures : List Enclosure
  exprAllowed : Bool
deriving DecidableEq, Repr, Inhabited

/-- A brace after these surroundings and a token starts a block, not an object. -/
def Surroundings.startsBlock (s : Surroundings) (last : Option Token) (afterBreak : Bool) : Bool :=
  match last, s.enclosures with
  | some .colon, .braceStmt :: _ => true
  | some .colon, .braceExpr :: _ => false
  | some (.keyword .returnKw), _ | some (.keyword .yieldKw), _ => afterBreak
  | some (.keyword .elseKw), _ | some .semi, _ | none, _ | some .rparen, _ => true
  | some .lbrace, .braceExpr :: .jsxOpening :: _ => true
  | some .lbrace, .braceStmt :: _ => true
  | some .lbrace, _ => false
  | some (.binary .lt), _ | some (.binary .gt), _ | some .arrow, _ => true
  | _, _ => !s.exprAllowed

/-- The surroundings after a token; `last` is the token before it. -/
def Surroundings.after (s : Surroundings) (hasJsx : Bool) (last : Option Token) (afterBreak : Bool)
    (t : Token) : Surroundings :=
  match t with
  | .rparen | .rbrace =>
    match s.enclosures with
    | [] | [_] => { s with exprAllowed := true }
    | .braceStmt :: .funcExpr :: r | .braceStmt :: .classExpr :: r => ⟨r, false⟩
    | .templateHole :: r => ⟨r, r.head? != some .template⟩
    | e :: r => ⟨r, !e.isExpr⟩
  | .keyword k =>
    if last = some .dot then { s with exprAllowed := false }
    else match k with
      | .functionKw | .classKw =>
        let e := if k = .functionKw then Enclosure.funcExpr else .classExpr
        if s.exprAllowed && !s.startsBlock last afterBreak then ⟨e :: s.enclosures, false⟩
        else { s with exprAllowed := false }
      | _ => { s with exprAllowed := k.beforeExpr }
  | .ident _ | .escaped _ =>
    if t = .ident "of" ∧ s.enclosures.head? = some (.parenStmt true) then
      { s with exprAllowed := !last.any Token.beforeExpr }
    else match last with
      | some (.keyword .letKw) | some (.keyword .constKw) | some (.keyword .varKw) =>
        { s with exprAllowed := afterBreak }
      | _ => { s with exprAllowed := false }
  | .colon =>
    match s.enclosures with
    | .funcExpr :: r | .classExpr :: r => ⟨r, true⟩
    | r => ⟨r, true⟩
  | .lbrace =>
    let e :=
      match s.enclosures with
      | .jsxOpening :: _ => Enclosure.braceExpr
      | .jsxExpr :: _ => .templateHole
      | _ => if s.startsBlock last afterBreak then .braceStmt else .braceExpr
    ⟨e :: s.enclosures, true⟩
  | .binary .div =>
    if hasJsx ∧ last = some .jsxTagStart then ⟨.jsxClosing :: s.enclosures.drop 2, false⟩
    else { s with exprAllowed := true }
  | .dollarBrace => ⟨.templateHole :: s.enclosures, true⟩
  | .lparen =>
    let e :=
      match last with
      | some (.keyword .ifKw) | some (.keyword .withKw) | some (.keyword .whileKw) =>
        Enclosure.parenStmt false
      | some (.keyword .forKw) => .parenStmt true
      | _ => .parenExpr
    ⟨e :: s.enclosures, true⟩
  | .plusPlus | .minusMinus => s
  | .backquote =>
    match s.enclosures with
    | .template :: r => ⟨r, false⟩
    | r => ⟨.template :: r, false⟩
  | .jsxTagStart => ⟨.jsxOpening :: .jsxExpr :: s.enclosures, false⟩
  | .jsxTagEnd =>
    match s.enclosures with
    | .jsxOpening :: r =>
      if last = some (.binary .div) then ⟨r.tail, r.tail.head? = some .jsxExpr⟩ else ⟨r, true⟩
    | .jsxClosing :: r => ⟨r.tail, r.tail.head? = some .jsxExpr⟩
    | r => ⟨r.tail, true⟩
  | t => { s with exprAllowed := t.beforeExpr }

end StepTrace.Script.Scan
