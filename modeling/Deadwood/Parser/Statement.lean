import Deadwood.Parser.Expression

/-!
# Parsing statements
-/

namespace Deadwood.Parser

/-! ### Declarations -/

/-- Whether `let` opens a declaration here rather than naming a variable. -/
def isLetDeclaration : Parser Bool := do
  if ← isWord "let" then
    match (← peek).kind with
    | .leftBracket | .leftBrace | .name | .awaitKw | .yieldKw => return true
    | _ => return false
  else
    return false

/-- A variable declaration without the semicolon that ends it. -/
def declaration (sub : Sub) : Parser (DeclKind × List Declarator) := do
  let kind : DeclKind ← do
    if (← Parser.kind) = .constKw then pure .const
    else if ← isWord "let" then pure .let_
    else pure .var
  next
  let list ← many (do return !(← failed)) (fun list => do
    let d ← bindingElement sub
    return (d :: list, ← accept .comma)) sub.fuel []
  return (kind, list.reverse)

/-- Reports the declarators that lack an initializer, at the offset of their declaration. -/
def checkInitializers (kind : DeclKind) (offset : Nat) : List Declarator → Parser Unit
  | [] => return ()
  | d :: ds => do
    if d.init.isNone then
      if d.target.ident?.isNone then reportAt offset .patternInitializer
      else if kind = .const then reportAt offset .constInitializer
    checkInitializers kind offset ds

def variableStatement (sub : Sub) : Parser Stmt := do
  let t ← token
  let (kind, list) ← declaration sub
  checkInitializers kind t.offset list
  semicolon
  return .decl kind list

/-! ### Statements -/

/-- A statement where no declaration of a block may stand. -/
def subStatement (sub : Sub) : Parser Stmt := do
  let k ← kind
  if k = .classKw || k = .constKw || (← isLetDeclaration) then report .lexicalInStatement
  sub.statement

/-- An expression in parentheses, as in the head of a statement. -/
def headExpr (sub : Sub) : Parser Expr := do
  expect .leftParen
  let e ← withIn (expression sub)
  expect .rightParen
  return e

def ifStatement (sub : Sub) : Parser Stmt := do
  expect .ifKw
  let test ← headExpr sub
  let yes ← subStatement sub
  if ← accept .elseKw then return .cond test yes (some (← subStatement sub))
  else return .cond test yes none

def loopBody (sub : Sub) : Parser Stmt :=
  inSetting .inLoop true (subStatement sub)

def whileStatement (sub : Sub) : Parser Stmt := do
  expect .whileKw
  let test ← headExpr sub
  return .while test (← loopBody sub)

def doWhileStatement (sub : Sub) : Parser Stmt := do
  expect .doKw
  let body ← loopBody sub
  expect .whileKw
  let test ← headExpr sub
  discard (accept .semicolon)
  return .doWhile body test

/-- What stands before the first semicolon, `in` or `of` of a loop head. -/
def forHead (sub : Sub) : Parser ForHead := do
  match ← kind with
  | .semicolon => return .empty
  | .varKw | .constKw =>
    let (kind, list) ← declaration sub
    return .decl kind list
  | _ =>
    if ← isLetDeclaration then
      let (kind, list) ← declaration sub
      return .decl kind list
    else
      return .expr (← expression sub)

/-- Checks the head of a loop over the parts of a value.  A pattern there claims the shorthand
initializers found in it. -/
def checkForTarget (start : Nat) (unclaimed : Option Nat) : ForHead → Parser Unit
  | .decl _ list => do
    if list.length ≠ 1 then reportAt start .loopBindings
  | .expr e => do
    if !e.isAssignable true then reportAt start .loopTarget
    else if e.isPattern then modify fun s => { s with unclaimed := unclaimed }
  | .empty => reportAt start .loopTarget

/-- The rest of a loop over the parts of a value, from `in` or `of` on. -/
def forEach (sub : Sub) (start : Nat) (head : ForHead) (unclaimed : Option Nat)
    (isAwait isOf : Bool) : Parser Stmt := do
  next
  checkForTarget start unclaimed head
  let source ← withIn (if isOf then sub.assignment else expression sub)
  expect .rightParen
  let body ← loopBody sub
  if isOf then return .forOf head source body isAwait
  if isAwait then reportAt start (.unexpectedToken "in")
  return .forIn head source body

/-- The rest of a loop with a test and an update, from the first semicolon on. -/
def forLoop (sub : Sub) (start : Nat) (head : ForHead) (isAwait : Bool) : Parser Stmt := do
  if isAwait then reportAt start (.unexpectedToken "for await")
  match head with
  | .decl kind list => checkInitializers kind start list
  | _ => pure ()
  expect .semicolon
  let (test, update) ← withIn do
    let test ← if (← kind) = .semicolon then pure none else some <$> expression sub
    expect .semicolon
    let update ← if (← kind) = .rightParen then pure none else some <$> expression sub
    return (test, update)
  expect .rightParen
  return .for head test update (← loopBody sub)

def forStatement (sub : Sub) : Parser Stmt := do
  let start := (← token).offset
  expect .forKw
  let isAwait ← do
    if (← kind) = .awaitKw then
      if !(← context).allowAwait then unexpectedHere
      next
      pure true
    else pure false
  expect .leftParen
  let unclaimed := (← get).unclaimed
  let head ← inSetting .allowIn false (forHead sub)
  if (← kind) = .inKw then forEach sub start head unclaimed isAwait false
  else if ← isWord "of" then forEach sub start head unclaimed isAwait true
  else forLoop sub start head isAwait

/-- The label of a jump, if one stands on the same line. -/
def jumpLabel : Parser (Option Ident) := do
  let t ← token
  if t.kind ≠ .name || t.onNewLine then return none
  let label ← identifier
  if !(← context).labels.contains label.name then report (.undefinedLabel label.name)
  return some label

def continueStatement : Parser Stmt := do
  expect .continueKw
  let label ← jumpLabel
  if !(← context).inLoop then report .illegalContinue
  semicolon
  return .cont label

def breakStatement : Parser Stmt := do
  expect .breakKw
  let label ← jumpLabel
  let c ← context
  if label.isNone && !c.inLoop && !c.inSwitch then report .illegalBreak
  semicolon
  return .brk label

def returnStatement (sub : Sub) : Parser Stmt := do
  if !(← context).inFunction then report .illegalReturn
  expect .returnKw
  let arg ← if endsStatement (← token) then pure none else some <$> expression sub
  semicolon
  return .ret arg

def throwStatement (sub : Sub) : Parser Stmt := do
  expect .throwKw
  if (← token).onNewLine then report .newlineAfterThrow
  let arg ← expression sub
  semicolon
  return .throw arg

/-- The parameter of a `catch` clause, if there is one. -/
def catchParam (sub : Sub) : Parser (Option Pattern) := do
  if ← accept .leftParen then
    let p ← sub.target
    expect .rightParen
    return some p
  else
    return none

def tryStatement (sub : Sub) : Parser Stmt := do
  expect .tryKw
  let body ← block sub
  let handler ← do
    if ← accept .catchKw then
      let param ← catchParam sub
      some <$> Prod.mk param <$> block sub
    else pure none
  let finalizer ← do
    if ← accept .finallyKw then some <$> block sub else pure none
  match handler, finalizer with
  | some (param, handler), finalizer => return .tryCatch body param handler finalizer
  | none, some finalizer => return .tryFinally body finalizer
  | none, none =>
    report .tryAlone
    return .block body

/-- Whether the body of a `switch` clause goes on. -/
def inClause : Parser Bool := do
  let s ← get
  let ends : List TokenKind := [.caseKw, .defaultKw, .rightBrace, .eof]
  return !s.failed && !ends.contains s.token.kind

/-- A clause of a `switch`, and whether it is the default. -/
def switchCase (sub : Sub) (hasDefault : Bool) : Parser (Case × Bool) := do
  let isDefault := (← kind) = .defaultKw
  let test ← do
    if isDefault then
      if hasDefault then report .repeatedDefault
      next
      pure none
    else
      expect .caseKw
      some <$> withIn (expression sub)
  expect .colon
  let body ← many inClause (fun body => do return ((← sub.item) :: body, true)) sub.fuel []
  return (.mk test body.reverse, isDefault)

def switchStatement (sub : Sub) : Parser Stmt := do
  expect .switchKw
  let subject ← headExpr sub
  expect .leftBrace
  let (cases, _) ← inSetting .inSwitch true <|
    many (isOpen .rightBrace) (fun (cases, hasDefault) => do
      let (c, isDefault) ← switchCase sub hasDefault
      return ((c :: cases, hasDefault || isDefault), true)) sub.fuel ([], false)
  expect .rightBrace
  return .switch subject cases.reverse

def labelledStatement (sub : Sub) : Parser Stmt := do
  let label ← identifier
  expect .colon
  if (← context).labels.contains label.name then report (.repeatedLabel label.name)
  let body ← inLabel label.name do
    if (← kind) = .functionKw then return .func (← function sub true false)
    else subStatement sub
  return .labelled label body

def expressionStatement (sub : Sub) : Parser Stmt := do
  let e ← expression sub
  semicolon
  return .expr e

/-- `import` or `export` where no module item may stand. -/
def nestedModuleItem (sub : Sub) : Parser Stmt := do
  let next? := (← peek).kind
  if (← kind) = .exportKw || (next? ≠ .leftParen && next? ≠ .dot) then
    report .nestedModuleItem
    next
    return .empty
  else
    expressionStatement sub

/-- A statement, or a declaration that is no declaration of a block. -/
def statement (sub : Sub) : Parser Stmt := do
  match ← kind with
  | .leftBrace => return .block (← block sub)
  | .semicolon =>
    next
    return .empty
  | .varKw => variableStatement sub
  | .ifKw => ifStatement sub
  | .forKw => forStatement sub
  | .whileKw => whileStatement sub
  | .doKw => doWhileStatement sub
  | .continueKw => continueStatement
  | .breakKw => breakStatement
  | .returnKw => returnStatement sub
  | .throwKw => throwStatement sub
  | .tryKw => tryStatement sub
  | .switchKw => switchStatement sub
  | .debuggerKw =>
    next
    semicolon
    return .debugger
  | .withKw =>
    report .withStatement
    next
    return .empty
  | .functionKw => return .func (← function sub true false)
  | .classKw =>
    unexpectedHere
    return .cls (← classLiteral sub [] true)
  | .importKw | .exportKw => nestedModuleItem sub
  | .name =>
    if (← peek).kind = .colon then labelledStatement sub else expressionStatement sub
  | _ => expressionStatement sub

/-- A statement or declaration. -/
def declarationOrStatement (sub : Sub) : Parser Stmt := do
  match ← kind with
  | .functionKw => return .func (← function sub true false)
  | .classKw => return .cls (← classLiteral sub [] true)
  | .at => return .cls (← decoratedClass sub true)
  | .constKw => variableStatement sub
  | .name =>
    if ← isLetDeclaration then variableStatement sub
    else if ← isAsyncFunction then
      next
      return .func (← function sub true true)
    else sub.statement
  | _ => sub.statement

/-- An element of a statement list.  A shorthand initializer that no pattern has claimed by its end is
a fault. -/
def item (sub : Sub) : Parser Stmt := do
  let s ← declarationOrStatement sub
  match (← get).unclaimed with
  | some offset =>
    reportAt offset .shorthandInitializer
    modify fun s => { s with unclaimed := none }
  | none => pure ()
  return s

end Deadwood.Parser
