import Deadwood.Parser.Statement

/-!
# Parsing modules
-/

namespace Deadwood.Parser

/-! ### The recursive productions -/

/-- The production of a goal in terms of the productions one level down. -/
def production (sub : Sub) : (g : Goal) → Parser g.Result
  | .assignment => assignment sub
  | .binary above => binary sub above
  | .unary => unary sub
  | .leftHand => leftHand sub
  | .newExpr => newExpr sub
  | .target => target sub
  | .statement => statement sub
  | .item => item sub

/-- What a goal gives when its bound is reached. -/
def Goal.default : (g : Goal) → g.Result
  | .assignment => Expr.hole
  | .binary _ => Expr.hole
  | .unary => Expr.hole
  | .leftHand => Expr.hole
  | .newExpr => Expr.hole
  | .target => Pattern.hole
  | .statement => Stmt.empty
  | .item => Stmt.empty

/-- Runs a goal with a bound on the depth of recursion and on the length of loops. -/
def runGoal : Nat → (g : Goal) → Parser g.Result
  | 0, g => do
    starve
    return g.default
  | n + 1, g => production ⟨n, runGoal n⟩ g

/-! ### Imports and exports -/

def moduleSource : Parser StringLit := do
  let t ← token
  if t.kind ≠ .string then
    unexpected t
    next
    return ⟨"", none⟩
  next
  return ⟨t.value, some t.lexeme⟩

/-- A name or string that names an export. -/
def exportName : Parser String := do
  let t ← token
  if t.kind ≠ .string && !t.kind.isName then unexpected t
  next
  return t.value

def importSpec : Parser ImportSpec := do
  let t ← token
  let imported ← exportName
  if ← isWord "as" then
    next
    return ⟨imported, ← identifier⟩
  else
    if t.kind ≠ .name then reportAt t.offset .reservedWord
    return ⟨imported, { name := imported }⟩

/-- The names in braces or the namespace of an import. -/
def importClause (fuel : Nat) : Parser (List ImportSpec) := do
  match ← kind with
  | .multiply =>
    next
    expectWord "as"
    return [⟨"*", ← identifier⟩]
  | .leftBrace =>
    next
    let specs ← commaList .rightBrace importSpec fuel
    expect .rightBrace
    return specs
  | _ =>
    unexpectedHere
    return []

/-- The source of a module after `from`, and the end of the statement. -/
def fromSource : Parser StringLit := do
  expectWord "from"
  let source ← moduleSource
  semicolon
  return source

def importDeclaration (fuel : Nat) : Parser Stmt := do
  expect .importKw
  if (← kind) = .string then
    let source ← moduleSource
    semicolon
    return .importDecl [] source
  if ← isBindingName then
    let binder ← identifier
    if ← accept .comma then
      let specs ← importClause fuel
      return .importDecl (⟨"default", binder⟩ :: specs) (← fromSource)
    else
      return .importDecl [⟨"default", binder⟩] (← fromSource)
  else
    let specs ← importClause fuel
    return .importDecl specs (← fromSource)

/-- An export specifier with the token of its local name. -/
def exportSpec : Parser (ExportSpec × Token) := do
  let t ← token
  let source ← exportName
  if ← isWord "as" then
    next
    return (⟨{ name := source }, ← exportName⟩, t)
  else
    return (⟨{ name := source }, source⟩, t)

/-- Reports the local names that are no names of bindings. -/
def checkLocals : List Token → Parser Unit
  | [] => return ()
  | t :: ts => do
    if t.kind ≠ .name then unexpected t
    checkLocals ts

def exportSpecifiers (fuel : Nat) : Parser Stmt := do
  expect .leftBrace
  let specs ← commaList .rightBrace exportSpec fuel
  expect .rightBrace
  let source ← do
    if ← isWord "from" then
      next
      some <$> moduleSource
    else
      checkLocals (specs.map Prod.snd)
      pure none
  semicolon
  return .exportNames (specs.map Prod.fst) source

def exportNamespace : Parser Stmt := do
  next
  let name ← do
    if ← isWord "as" then
      next
      some <$> exportName
    else pure none
  return .exportAll name (← fromSource)

def exportDefault (sub : Sub) : Parser Stmt := do
  match ← kind with
  | .functionKw => return .exportDefault (.func (← function sub false false))
  | .classKw => return .exportDefault (.cls (← classLiteral sub [] false))
  | .at =>
    let decs ← decorators sub
    return .exportDefault (.cls (← classLiteral sub decs false))
  | _ =>
    if ← isAsyncFunction then
      next
      return .exportDefault (.func (← function sub false true))
    else
      let e ← sub.assignment
      semicolon
      return .exportDefaultExpr e

/-- An export without decorators, after its keyword. -/
def plainExport (sub : Sub) : Parser Stmt := do
  match ← kind with
  | .defaultKw =>
    next
    exportDefault sub
  | .multiply => exportNamespace
  | .leftBrace => exportSpecifiers sub.fuel
  | .varKw | .constKw => return .exportDecl (← variableStatement sub)
  | .functionKw => return .exportDecl (.func (← function sub true false))
  | .classKw => return .exportDecl (.cls (← classLiteral sub [] true))
  | _ =>
    if ← isLetDeclaration then return .exportDecl (← variableStatement sub)
    else if ← isWord "async" then
      next
      return .exportDecl (.func (← function sub true true))
    else
      unexpectedHere
      next
      return .empty

/-- An export from its keyword on; `decs` are the decorators before it. -/
def exportDeclaration (sub : Sub) (decs : List Expr) : Parser Stmt := do
  expect .exportKw
  let decs ← if decs.isEmpty && (← kind) = .at then decorators sub else pure decs
  if decs.isEmpty then plainExport sub
  else
    match ← kind with
    | .classKw => return .exportDecl (.cls (← classLiteral sub decs true))
    | .defaultKw =>
      next
      return .exportDefault (.cls (← classLiteral sub decs false))
    | _ =>
      unexpectedHere
      plainExport sub

/-- A statement, import or export at the top level. -/
def moduleItem (sub : Sub) : Parser Stmt := do
  match ← kind with
  | .importKw =>
    let k := (← peek).kind
    if k ≠ .leftParen && k ≠ .dot then importDeclaration sub.fuel else sub.item
  | .exportKw => exportDeclaration sub []
  | .at =>
    let saved ← checkpoint
    let decs ← decorators sub
    if (← kind) = .exportKw then exportDeclaration sub decs
    else
      restore saved
      sub.item
  | _ => sub.item

/-- The items of a program. -/
def program (sub : Sub) : Parser (List Stmt) :=
  itemList .eof (moduleItem sub) sub.fuel

/-- A bound that no text reaches: a token opens at most a few levels of recursion. -/
def fuelFor (text : String) : Nat := 8 * (text.utf8ByteSize + 8)

end Parser

/-- Parses a program, or gives the faults found in its text. -/
def Program.parse (text : String) : Except (List Fault) Program :=
  let fuel := Parser.fuelFor text
  let (body, s) := (Parser.program ⟨fuel, Parser.runGoal fuel⟩).run (.ofString text)
  if s.faults.isEmpty then .ok ⟨body⟩ else .error s.faults

end Deadwood
