import Deadwood.Parser.State

/-!
# Parsing expressions, functions and classes
-/

namespace Deadwood.Parser

/-! ### Lists -/

/-- A sequence of expressions separated by commas. -/
def expression (sub : Sub) : Parser Expr := do
  let first ← sub.assignment
  if (← kind) ≠ .comma then return first
  let rest ← many (do return (← kind) = .comma && !(← failed)) (fun es => do
    next
    return ((← sub.assignment) :: es, true)) sub.fuel []
  return .seq (first :: rest.reverse)

/-- An argument or array element. -/
def spreadable (sub : Sub) : Parser Expr := do
  if ← accept .ellipsis then return .spread (← sub.assignment)
  else sub.assignment

def arguments (sub : Sub) : Parser (List Expr) := do
  expect .leftParen
  let list ← withIn (commaList .rightParen (spreadable sub) sub.fuel)
  expect .rightParen
  return list

/-- The key of a computed member. -/
def computedKey (sub : Sub) : Parser Expr := do
  expect .leftBracket
  let e ← withIn (expression sub)
  expect .rightBracket
  return e

def parenthesized (sub : Sub) : Parser Expr := do
  next
  let e ← withIn (expression sub)
  expect .rightParen
  return e

/-! ### Literals -/

def regExpLiteral : Parser Expr := do
  let t ← token
  let r := scanRegExp t.start
  let known := ['d', 'g', 'i', 'm', 's', 'u', 'v', 'y']
  let unknown := r.value.2.filter fun f => !known.contains f
  modify fun s => { s with
    token := { t with finish := r.cursor }
    faults := s.faults ++ r.faults ++ unknown.map fun _ => ⟨t.offset, .regExpFlags⟩ }
  next
  return .regExp (String.ofList r.value.1) (String.ofList r.value.2)

/-- Goes on with template text after the brace that closes a substitution. -/
def resumeTemplate : Parser Unit :=
  modify fun s =>
    let (token, faults) := s.token.resumeTemplate
    { s with token, faults := s.faults ++ faults }

/-- The template whose first chunk is the current token. -/
def templateLiteral (sub : Sub) (tag : Option Expr) : Parser Expr := do
  let (chunks, exprs) ← many (do return !(← failed)) (fun (chunks, exprs) => do
    let t ← token
    let chunks := TemplateChunk.mk t.raw t.value :: chunks
    next
    if t.isTail then return ((chunks, exprs), false)
    let e ← withIn (expression sub)
    if (← kind) ≠ .rightBrace then
      unexpectedHere
      return ((chunks, e :: exprs), false)
    resumeTemplate
    return ((chunks, e :: exprs), true)) sub.fuel ([], [])
  return .template tag chunks.reverse exprs.reverse

def arrayLiteral (sub : Sub) : Parser Expr := do
  expect .leftBracket
  let elems ← withIn (many (isOpen .rightBracket) (fun elems => do
    if ← accept .comma then return (.hole :: elems, true)
    let e ← spreadable sub
    if (← kind) ≠ .rightBracket then expect .comma
    return (e :: elems, true)) sub.fuel [])
  expect .rightBracket
  return .array elems.reverse

/-- The key of a property or class element, and whether it is computed. -/
def propertyKey (sub : Sub) : Parser (Expr × Bool) := do
  let t ← token
  match t.kind with
  | .leftBracket =>
    next
    let key ← withIn sub.assignment
    expect .rightBracket
    return (key, true)
  | .string =>
    next
    return (.string ⟨t.value, some t.lexeme⟩, false)
  | .number =>
    next
    return (.number t.number (some t.lexeme), false)
  | k =>
    if k.isName then
      if isPrivate t.value && !(← context).inClass then unexpected t
      next
      return (.ident { name := t.value }, false)
    else
      unexpected t
      next
      return (.ident { name := t.lexeme }, false)

/-! ### Functions -/

/-- A binding target with an optional default. -/
def bindingElement (sub : Sub) : Parser Declarator := do
  let target ← sub.target
  if ← accept .assign then return .mk 0 target (some (← sub.assignment))
  else return .mk 0 target none

def parameters (sub : Sub) : Parser (List Declarator × Option Pattern) := do
  expect .leftParen
  let (params, rest) ← withIn (many (isOpen .rightParen) (fun (params, _) => do
    if ← accept .ellipsis then
      let rest ← sub.target
      if (← kind) ≠ .rightParen then report .restParameter
      return ((params, some rest), false)
    let d ← bindingElement sub
    if (← kind) ≠ .rightParen then expect .comma
    return ((d :: params, none), true)) sub.fuel ([], none))
  expect .rightParen
  return (params.reverse, rest)

/-- Statements in braces. -/
def block (sub : Sub) : Parser (List Stmt) := do
  expect .leftBrace
  let body ← itemList .rightBrace sub.item sub.fuel
  expect .rightBrace
  return body

/-- The parameters and the body of a function. -/
def functionRest (sub : Sub) (name : Option Ident) (async generator : Bool) : Parser Func :=
  inFunction async generator do
    let (params, rest) ← parameters sub
    let body ← block sub
    return .mk name params rest body async generator

/-- A function from its keyword on.  The name of an expression follows the rules of its own body. -/
def function (sub : Sub) (declaration async : Bool) : Parser Func := do
  expect .functionKw
  let generator ← accept .multiply
  let name ←
    if (← kind) = .leftParen then pure none
    else if declaration then some <$> identifier
    else some <$> inSetting .operators (async, generator) identifier
  functionRest sub name async generator

/-- The parameters and the body of a method. -/
def method (sub : Sub) (async generator : Bool) : Parser Func :=
  functionRest sub none async generator

/-- Checks the number of parameters of an accessor whose key stands at `offset`. -/
def checkAccessor (kind : MemberKind) (f : Func) (offset : Nat) : Parser Unit := do
  match kind with
  | .get => if !f.params.isEmpty || f.rest.isSome then reportAt offset .getterParameters
  | .set => if f.params.length ≠ 1 || f.rest.isSome then reportAt offset .setterParameters
  | _ => return ()

/-- The body of an arrow function, from the arrow on. -/
def arrowBody (sub : Sub) (params : List Declarator) (rest : Option Pattern) (async : Bool) :
    Parser Expr := do
  expect .arrow
  inFunction async false do
    if (← kind) = .leftBrace then return .arrowBlock params rest (← block sub) async
    else return .arrow params rest (← sub.assignment) async

/-- An arrow function with a single bare parameter. -/
def singleArrow (sub : Sub) (param : Ident) (async : Bool) : Parser Expr :=
  arrowBody sub [.mk 0 (.ident param) none] none async

/-- The parameters of an arrow function after its modifier. -/
def arrowParameters (sub : Sub) (async : Bool) : Parser (List Declarator × Option Pattern) := do
  if async then next
  parameters sub

/-- An arrow function with parenthesized parameters, or nothing if what is ahead is none. -/
def listArrow? (sub : Sub) (async : Bool) : Parser (Option Expr) := do
  let saved ← checkpoint
  let (params, rest) ← arrowParameters sub async
  let s ← get
  if s.faults.length > saved.faults || s.token.kind ≠ .arrow || s.token.onNewLine then
    restore saved
    return none
  else
    return some (← arrowBody sub params rest async)

/-- An arrow function, or nothing if what is ahead is none. -/
def arrow? (sub : Sub) : Parser (Option Expr) := do
  if ← isBindingName then
    let t ← peek
    let async ← isWord "async"
    if async && t.kind = .leftParen && !t.onNewLine then listArrow? sub true
    else if async && t.kind = .name && !t.onNewLine then
      let saved ← checkpoint
      next
      let param ← identifier
      let arrow ← token
      if arrow.kind = .arrow && !arrow.onNewLine then return some (← singleArrow sub param true)
      restore saved
      return none
    else if t.kind ≠ .arrow || t.onNewLine then return none
    else
      let param ← identifier
      return some (← singleArrow sub param false)
  else if (← kind) = .leftParen then listArrow? sub false
  else return none

/-! ### Object literals -/

/-- The modifiers of a property or class element before its key. -/
structure Modifiers where
  async : Bool
  generator : Bool
  /-- `get` or `set` for an accessor, and the given default otherwise. -/
  kind : MemberKind
deriving DecidableEq, Repr

def Modifiers.isAccessor (m : Modifiers) : Bool := m.kind = .get || m.kind = .set

def modifiers (default : MemberKind) : Parser Modifiers := do
  let async ← isModifier "async"
  if async then next
  let generator ← accept .multiply
  if async || generator then return ⟨async, generator, default⟩
  if ← isModifier "get" then
    next
    return ⟨false, false, .get⟩
  if ← isModifier "set" then
    next
    return ⟨false, false, .set⟩
  return ⟨false, false, default⟩

/-- Whether a token kind can stand alone as a shorthand property. -/
def isShorthandKind (k : TokenKind) : Bool := k = .name || k = .awaitKw || k = .yieldKw

def objectProperty (sub : Sub) : Parser Property := do
  if ← accept .ellipsis then return .spread (← sub.assignment)
  let m ← modifiers .value
  let keyToken ← token
  let (key, computed) ← propertyKey sub
  if m.isAccessor || m.async || m.generator || (← kind) = .leftParen then
    let kind := if m.isAccessor then m.kind else .method
    let f ← method sub m.async m.generator
    checkAccessor kind f keyToken.offset
    return .keyed key kind (.func f) computed
  if ← accept .colon then return .keyed key .value (← sub.assignment) computed
  match key with
  | .ident id =>
    if computed || !isShorthandKind keyToken.kind then
      unexpectedHere
      return .keyed key .value (.ident { name := "" }) computed
    else
      let t ← token
      if t.kind = .assign then
        modify fun s => { s with unclaimed := s.unclaimed <|> some t.offset }
        next
        return .short id (some (← sub.assignment))
      else
        return .short id none
  | _ =>
    unexpectedHere
    return .keyed key .value (.ident { name := "" }) computed

def objectLiteral (sub : Sub) : Parser Expr := do
  expect .leftBrace
  let props ← withIn (commaList .rightBrace (objectProperty sub) sub.fuel)
  expect .rightBrace
  return .object props

/-! ### Patterns -/

def arrayPattern (sub : Sub) : Parser Pattern := do
  expect .leftBracket
  let (elems, rest) ← many (isOpen .rightBracket) (fun (elems, _) => do
    if ← accept .comma then return ((.mk 0 .hole none :: elems, none), true)
    if ← accept .ellipsis then
      let rest ← sub.target
      if (← kind) ≠ .rightBracket then report .restElement
      return ((elems, some rest), false)
    let d ← bindingElement sub
    if (← kind) ≠ .rightBracket then expect .comma
    return ((d :: elems, none), true)) sub.fuel ([], none)
  expect .rightBracket
  return .array elems.reverse rest

def patternProperty (sub : Sub) : Parser PatternProp := do
  let keyToken ← token
  let (key, computed) ← propertyKey sub
  if ← accept .colon then return .mk key computed false (← bindingElement sub)
  if computed || !isShorthandKind keyToken.kind then unexpectedHere
  let target := Pattern.ident { name := keyToken.value }
  if ← accept .assign then
    return .mk key computed true (.mk 0 target (some (← sub.assignment)))
  else
    return .mk key computed true (.mk 0 target none)

def objectPattern (sub : Sub) : Parser Pattern := do
  expect .leftBrace
  let (props, rest) ← many (isOpen .rightBrace) (fun (props, _) => do
    if ← accept .ellipsis then
      if !(← isBindingName) then unexpectedHere
      let id ← identifier
      return ((props, some (.ident id)), false)
    let p ← patternProperty sub
    if (← kind) ≠ .rightBrace then expect .comma
    return ((p :: props, none), true)) sub.fuel ([], none)
  expect .rightBrace
  return .object props.reverse rest

/-- A name or pattern in a declaration or parameter list. -/
def target (sub : Sub) : Parser Pattern := do
  match ← kind with
  | .leftBracket => arrayPattern sub
  | .leftBrace => objectPattern sub
  | _ =>
    if ← isBindingName then return .ident (← identifier)
    else
      unexpectedHere
      next
      return .ident { name := "" }

/-! ### Classes -/

/-- The members after a decorator's name. -/
def decoratorPath (e : Expr) : Nat → Parser Expr :=
  fun n => many (do return (← kind) = .dot) (fun e => do
    next
    return (.member e (← propertyName) false, true)) n e

def decorator (sub : Sub) : Parser Expr := do
  next
  if (← kind) = .leftParen then parenthesized sub
  else
    let id ← identifier
    let e ← decoratorPath (.ident id) sub.fuel
    if (← kind) = .leftParen then return .call e (← arguments sub) false
    else return e

def decorators (sub : Sub) : Parser (List Expr) := do
  let list ← many (do return (← kind) = .at && !(← failed)) (fun list => do
    return ((← decorator sub) :: list, true)) sub.fuel []
  return list.reverse

def classMember (sub : Sub) (isStatic : Bool) : Parser ClassElement := do
  let m ← modifiers .method
  let keyToken ← token
  let (key, computed) ← propertyKey sub
  if m.isAccessor || m.async || m.generator || (← kind) = .leftParen then
    let f ← method sub m.async m.generator
    checkAccessor m.kind f keyToken.offset
    return .method key m.kind f computed isStatic
  let init ← do
    if ← accept .assign then
      some <$> inFunction false false (withIn sub.assignment)
    else pure none
  semicolon
  return .field key init computed isStatic

def classElement (sub : Sub) : Parser ClassElement := do
  if ← isModifier "static" then
    next
    if (← kind) = .leftBrace then
      return .block (← inFunction false false (block sub))
    classMember sub true
  else
    classMember sub false

/-- A class from its keyword on. -/
def classLiteral (sub : Sub) (decs : List Expr) (declaration : Bool) : Parser Class := do
  expect .classKw
  let name ← do
    if ← isBindingName then some <$> identifier
    else
      if declaration then unexpectedHere
      pure none
  let superclass ← do
    if ← accept .extendsKw then some <$> sub.leftHand else pure none
  let body ← inSetting .inClass true do
    expect .leftBrace
    let body ← many (isOpen .rightBrace) (fun body => do
      if ← accept .semicolon then return (body, true)
      if (← kind) = .at then
        report .memberDecorators
        discard (decorators sub)
      return ((← classElement sub) :: body, true)) sub.fuel []
    expect .rightBrace
    return body.reverse
  return .mk name superclass body decs

/-- A class after its decorators. -/
def decoratedClass (sub : Sub) (declaration : Bool) : Parser Class := do
  let decs ← decorators sub
  if (← kind) ≠ .classKw then unexpectedHere
  classLiteral sub decs declaration

/-! ### Operators -/

/-- Whether the keyword `async` opens a function here. -/
def isAsyncFunction : Parser Bool := do
  if ← isWord "async" then
    let t ← peek
    return t.kind = .functionKw && !t.onNewLine
  else
    return false

/-- `import` in an expression, which is a call or the member `import.meta`. -/
def importExpr : Parser Expr := do
  next
  if ← accept .dot then
    if (← token).value ≠ "meta" then unexpectedHere
    next
    return .member (.ident { name := "import" }) { name := "meta" } false
  if (← kind) ≠ .leftParen then unexpectedHere
  return .ident { name := "import" }

def primary (sub : Sub) : Parser Expr := do
  let t ← token
  match t.kind with
  | .name =>
    if ← isAsyncFunction then
      next
      return .func (← function sub false true)
    else if isPrivate t.value then
      next
      if (← kind) ≠ .inKw then reportAt t.offset (.unexpectedToken t.lexeme)
      return .ident { name := t.value }
    else
      return .ident (← identifier)
  | .awaitKw | .yieldKw => return .ident (← identifier)
  | .thisKw =>
    next
    return .this
  | .superKw =>
    next
    let k ← kind
    if k ≠ .leftParen && k ≠ .dot && k ≠ .leftBracket then report .superOutOfPlace
    return .super
  | .null =>
    next
    return .null
  | .boolean =>
    next
    return .bool (t.value = "true")
  | .number =>
    next
    return .number t.number (some t.lexeme)
  | .string =>
    next
    return .string ⟨t.value, some t.lexeme⟩
  | .template => templateLiteral sub none
  | .divide | .divideAssign => regExpLiteral
  | .leftBracket => arrayLiteral sub
  | .leftBrace => objectLiteral sub
  | .leftParen => parenthesized sub
  | .functionKw => return .func (← function sub false false)
  | .classKw => return .cls (← classLiteral sub [] false)
  | .at => return .cls (← decoratedClass sub false)
  | .importKw => importExpr
  | _ =>
    unexpected t
    next
    return .ident { name := t.lexeme }

/-- The expression with the member, call or template that follows it, and whether there was one. -/
def suffix (sub : Sub) (left : Expr) : Parser (Expr × Bool) := do
  match ← kind with
  | .dot =>
    next
    return (.member left (← propertyName) false, true)
  | .questionDot =>
    next
    match ← kind with
    | .leftParen => return (.call left (← arguments sub) true, true)
    | .leftBracket => return (.index left (← computedKey sub) true, true)
    | .template =>
      report .templateOnChain
      return (left, false)
    | _ => return (.member left (← propertyName) true, true)
  | .leftBracket => return (.index left (← computedKey sub) false, true)
  | .leftParen => return (.call left (← arguments sub) false, true)
  | .template => return (← templateLiteral sub (some left), true)
  | _ => return (left, false)

/-- An expression with its members and calls. -/
def leftHand (sub : Sub) : Parser Expr := do
  let left ← if (← kind) = .newKw then sub.newExpr else primary sub
  many (do return !(← failed)) (suffix sub) sub.fuel left

/-- The callee of `new` with the member or template that follows it, and whether there was one. -/
def calleeSuffix (sub : Sub) (callee : Expr) : Parser (Expr × Bool) := do
  match ← kind with
  | .dot =>
    next
    return (.member callee (← propertyName) false, true)
  | .leftBracket => return (.index callee (← computedKey sub) false, true)
  | .template => return (← templateLiteral sub (some callee), true)
  | .questionDot =>
    report .chainFromNew
    return (callee, false)
  | _ => return (callee, false)

def newExpr (sub : Sub) : Parser Expr := do
  expect .newKw
  if ← accept .dot then
    if (← token).value ≠ "target" || !(← context).inFunction then unexpectedHere
    next
    return .member (.ident { name := "new" }) { name := "target" } false
  let callee ← if (← kind) = .newKw then sub.newExpr else primary sub
  let callee ← many (do return !(← failed)) (calleeSuffix sub) sub.fuel callee
  if (← kind) = .leftParen then return .new callee (← arguments sub)
  else return .new callee []

/-- An operand with a `++` or `--` after it, if there is one on the same line. -/
def updateAfter (sub : Sub) : Parser Expr := do
  let start ← token
  let operand ← sub.leftHand
  let t ← token
  match UpdateOp.ofKind? t.kind with
  | some op =>
    if t.onNewLine then return operand
    if !operand.isAssignable false then reportAt start.offset (.updateTarget true)
    next
    return .update op operand true
  | none => return operand

def unary (sub : Sub) : Parser Expr := do
  let t ← token
  match UnaryOp.ofKind? t.kind, UpdateOp.ofKind? t.kind with
  | some op, _ =>
    next
    let operand ← sub.unary
    if (← kind) = .exponent then report .unaryBeforeExponent
    return .unary op operand
  | none, some op =>
    next
    let operand ← sub.unary
    if !operand.isAssignable false then reportAt t.offset (.updateTarget false)
    return .update op operand false
  | none, none =>
    if t.kind = .awaitKw && (← context).allowAwait then
      next
      return .await (← sub.unary)
    else
      updateAfter sub

/-- An operator that binds tighter than `above` and its right operand. -/
def operation (sub : Sub) (above : Nat) (left : Expr) : Parser (Expr × Bool) := do
  let k ← kind
  let prec := k.precedence (← context).allowIn
  match BinaryOp.ofKind? k with
  | some op =>
    if prec ≤ above then return (left, false)
    next
    let right ← sub.binary (if op = .exponent then prec - 1 else prec)
    return (.binary op left right, true)
  | none => return (left, false)

/-- Operators that bind tighter than `above`; only exponentiation groups to the right. -/
def binary (sub : Sub) (above : Nat) : Parser Expr := do
  let left ← sub.unary
  many (do return !(← failed)) (operation sub above) sub.fuel left

def conditional (sub : Sub) : Parser Expr := do
  let test ← sub.binary 0
  if ← accept .question then
    let yes ← withIn sub.assignment
    expect .colon
    let no ← sub.assignment
    return .cond test yes no
  else
    return test

/-- Whether a token ends an expression, so that a `yield` before it stands alone. -/
def endsYield (k : TokenKind) : Bool :=
  [.rightParen, .rightBracket, .rightBrace, .comma, .semicolon, .colon, .eof, .inKw].contains k

def yieldExpr (sub : Sub) : Parser Expr := do
  expect .yieldKw
  if (← token).onNewLine then return .yield none false
  let delegate ← accept .multiply
  if endsYield (← kind) then
    if delegate then unexpectedHere
    return .yield none delegate
  else
    return .yield (some (← sub.assignment)) delegate

/-- An expression without commas. -/
def assignment (sub : Sub) : Parser Expr := do
  if (← kind) = .yieldKw && (← context).allowYield then yieldExpr sub
  else
    match ← arrow? sub with
    | some e => return e
    | none =>
      let start ← token
      let left ← conditional sub
      match AssignOp.ofKind? (← kind) with
      | none => return left
      | some op =>
        if !left.isAssignable (op = .assign) then reportAt start.offset .assignmentTarget
        if op = .assign && left.isPattern then modify fun s => { s with unclaimed := none }
        next
        return .assign op left (← sub.assignment)

end Deadwood.Parser
