import Deadwood.Elimination.Rules

/-!
# Applying the rules everywhere

One pass goes through a program in the order it is written and applies the rules from the inside out.
-/

namespace Deadwood

open Elimination

/-- What the operand of an operator is. -/
def UnaryOp.operandRole : UnaryOp → OperandRole
  | delete => .delete
  | typeof => .typeof
  | _ => .value

def Expr.isIdent : Expr → Bool
  | .ident _ => true
  | _ => false

mutual

/-- An expression after the pass, which stands in the given role. -/
def Expr.eliminate (role : OperandRole) : Expr → Pass Expr
  | .hole => return .hole
  | .ident id => return (← inline id).getD (.ident id)
  | .this => return .this
  | .super => return .super
  | .null => return .null
  | .bool b => return .bool b
  | .number value raw => return .number value raw
  | .string lit => return .string lit
  | .regExp pattern flags => return .regExp pattern flags
  | .template tag chunks es => do
    let tag ← Expr.eliminateOpt .callee tag
    return .template tag chunks (← Expr.eliminateList es)
  | .array es => return .array (← Expr.eliminateList es)
  | .object ps => return .object (← Property.eliminateList ps)
  | .spread e => return .spread (← e.eliminate .value)
  | .func f => return .func (← f.eliminate)
  | .arrow params rest body async => do
    let params ← Declarator.eliminateList params
    let rest ← Pattern.eliminateOpt rest
    return .arrow params rest (← body.eliminate .value) async
  | .arrowBlock params rest body async => do
    let params ← Declarator.eliminateList params
    let rest ← Pattern.eliminateOpt rest
    return .arrowBlock params rest (← Stmt.eliminateList false body) async
  | .cls c => return .cls (← c.eliminate)
  | .unary op e =>
    -- Deleting a name and deleting its value do not give the same result.
    if op = .delete && e.isIdent then return .unary op e
    else return .unary op (← e.eliminate op.operandRole)
  | .update op e post => return .update op (← e.eliminate .value) post
  | .binary op l r => do
    let l ← l.eliminate .value
    return .binary op l (← r.eliminate .value)
  | .assign op l r => do
    let l ← l.eliminate .value
    return .assign op l (← r.eliminate .value)
  | .cond test yes no => do
    let test ← test.eliminate .value
    let yes ← yes.eliminate .value
    let no ← no.eliminate .value
    foldConditional role test yes no
  | .seq es => return .seq (← Expr.eliminateList es)
  | .call callee args optional => do
    let callee ← callee.eliminate .callee
    return .call callee (← Expr.eliminateList args) optional
  | .new callee args => do
    let callee ← callee.eliminate .value
    return .new callee (← Expr.eliminateList args)
  | .member object name optional => return .member (← object.eliminate .value) name optional
  | .index object key optional => do
    let object ← object.eliminate .value
    return .index object (← key.eliminate .value) optional
  | .await e => return .await (← e.eliminate .value)
  | .yield arg delegate => return .yield (← Expr.eliminateOpt .value arg) delegate

def Expr.eliminateOpt (role : OperandRole) : Option Expr → Pass (Option Expr)
  | none => return none
  | some e => return some (← e.eliminate role)

def Expr.eliminateList : List Expr → Pass (List Expr)
  | [] => return []
  | e :: es => do
    let e ← e.eliminate .value
    return e :: (← Expr.eliminateList es)

/-- A property after the pass.  A name that stands for itself gets its value written out. -/
def Property.eliminate : Property → Pass Property
  | .short id none => do
    match ← inline id with
    | some value => return .keyed (.ident { name := id.name }) .value value false
    | none => return .short id none
  | .short id (some init) => return .short id (some (← init.eliminate .value))
  | .keyed key kind value computed => do
    let key ← if computed then key.eliminate .value else pure key
    return .keyed key kind (← value.eliminate .value) computed
  | .spread e => return .spread (← e.eliminate .value)

def Property.eliminateList : List Property → Pass (List Property)
  | [] => return []
  | p :: ps => do
    let p ← p.eliminate
    return p :: (← Property.eliminateList ps)

def Func.eliminate : Func → Pass Func
  | .mk name params rest body async generator => do
    let params ← Declarator.eliminateList params
    let rest ← Pattern.eliminateOpt rest
    return .mk name params rest (← Stmt.eliminateList false body) async generator

def Class.eliminate : Class → Pass Class
  | .mk name superclass body decorators => do
    let decorators ← Expr.eliminateList decorators
    let superclass ← Expr.eliminateOpt .value superclass
    return .mk name superclass (← ClassElement.eliminateList body) decorators

def ClassElement.eliminate : ClassElement → Pass ClassElement
  | .field key init computed isStatic => do
    let key ← if computed then key.eliminate .value else pure key
    return .field key (← Expr.eliminateOpt .value init) computed isStatic
  | .method key kind body computed isStatic => do
    let key ← if computed then key.eliminate .value else pure key
    return .method key kind (← body.eliminate) computed isStatic
  | .block body => return .block (← Stmt.eliminateList false body)

def ClassElement.eliminateList : List ClassElement → Pass (List ClassElement)
  | [] => return []
  | e :: es => do
    let e ← e.eliminate
    return e :: (← ClassElement.eliminateList es)

def Pattern.eliminate : Pattern → Pass Pattern
  | .hole => return .hole
  | .ident id => return .ident id
  | .array elems rest => do
    let elems ← Declarator.eliminateList elems
    return .array elems (← Pattern.eliminateOpt rest)
  | .object props rest => do
    let props ← PatternProp.eliminateList props
    return .object props (← Pattern.eliminateOpt rest)

def Pattern.eliminateOpt : Option Pattern → Pass (Option Pattern)
  | none => return none
  | some p => return some (← p.eliminate)

/-- A declarator after the pass.  A dead one is left as it is, and a trimmed one has lost its
initializer. -/
def Declarator.eliminate : Declarator → Pass Declarator
  | .mk site target init => do
    if (← get).isDead site then return .mk site target init
    else
      let target ← target.eliminate
      let init ← if (← get).trimmed.contains site then pure none else Expr.eliminateOpt .value init
      defineVariable (.mk site target init)
      return .mk site target init

def Declarator.eliminateList : List Declarator → Pass (List Declarator)
  | [] => return []
  | d :: ds => do
    let d ← d.eliminate
    return d :: (← Declarator.eliminateList ds)

def PatternProp.eliminate : PatternProp → Pass PatternProp
  | .mk key computed shorthand value => do
    let key ← if computed then key.eliminate .value else pure key
    return .mk key computed shorthand (← value.eliminate)

def PatternProp.eliminateList : List PatternProp → Pass (List PatternProp)
  | [] => return []
  | p :: ps => do
    let p ← p.eliminate
    return p :: (← PatternProp.eliminateList ps)

/-- A statement after the pass has gone through its parts. -/
def Stmt.eliminate : Stmt → Pass Stmt
  | .empty => return .empty
  | .debugger => return .debugger
  | .block body => return .block (← Stmt.eliminateList false body)
  | .expr e => return .expr (← e.eliminate .value)
  | .cond test yes no => do
    let test ← test.eliminate .value
    let yes ← reduceSlot yes yes.eliminate
    return .cond test yes (← Stmt.eliminateOpt no)
  | .ret arg => return .ret (← Expr.eliminateOpt .value arg)
  | .throw arg => return .throw (← arg.eliminate .value)
  | .brk label => return .brk label
  | .cont label => return .cont label
  | .labelled label body => return .labelled label (← reduceSlot body body.eliminate)
  | .while test body => do
    let test ← test.eliminate .value
    return .while test (← reduceSlot body body.eliminate)
  | .doWhile body test => do
    let body ← reduceSlot body body.eliminate
    return .doWhile body (← test.eliminate .value)
  | .for head test update body => do
    let head ← head.eliminate true
    let test ← Expr.eliminateOpt .value test
    let update ← Expr.eliminateOpt .value update
    return .for head test update (← reduceSlot body body.eliminate)
  | .forIn head source body => do
    let head ← head.eliminate false
    let source ← source.eliminate .value
    return .forIn head source (← reduceSlot body body.eliminate)
  | .forOf head source body await => do
    let head ← head.eliminate false
    let source ← source.eliminate .value
    return .forOf head source (← reduceSlot body body.eliminate) await
  | .switch subject cases => do
    let subject ← subject.eliminate .value
    return .switch subject (← Case.eliminateList cases)
  | .tryCatch body param handler finalizer => do
    let body ← Stmt.eliminateList false body
    let param ← Pattern.eliminateOpt param
    let handler ← Stmt.eliminateList false handler
    return .tryCatch body param handler (← Stmt.eliminateBlock finalizer)
  | .tryFinally body finalizer => do
    let body ← Stmt.eliminateList false body
    return .tryFinally body (← Stmt.eliminateList false finalizer)
  | .decl kind list => return .decl kind (← Declarator.eliminateList list)
  | .func f => do
    let f ← f.eliminate
    defineFunc f
    return .func f
  | .cls c => do
    let c ← c.eliminate
    defineClass c
    return .cls c
  | .importDecl specs source => return .importDecl specs source
  | .exportDecl decl => return .exportDecl (← reduceSlot decl decl.eliminate)
  | .exportNames specs source => return .exportNames specs source
  | .exportAll name source => return .exportAll name source
  | .exportDefault decl => return .exportDefault (← reduceSlot decl decl.eliminate)
  | .exportDefaultExpr e => return .exportDefaultExpr (← e.eliminate .value)

def Stmt.eliminateOpt : Option Stmt → Pass (Option Stmt)
  | none => return none
  | some t => return some (← reduceSlot t t.eliminate)

/-- The statements of a list after the pass.  Nothing is reached `past` a statement that ends the list,
and statements that do nothing go. -/
def Stmt.eliminateList (past : Bool) : List Stmt → Pass (List Stmt)
  | [] => return []
  | t :: ts => do
    let kept := (← reduceListed past t t.eliminate).filter fun t => !t.isEmpty
    return kept ++ (← Stmt.eliminateList (past || kept.any Stmt.isCompletion) ts)

def Stmt.eliminateBlock : Option (List Stmt) → Pass (Option (List Stmt))
  | none => return none
  | some ts => return some (← Stmt.eliminateList false ts)

/-- The first part of the head of a loop after the pass; `removes` tells whether unused names may go. -/
def ForHead.eliminate (removes : Bool) : ForHead → Pass ForHead
  | .empty => return .empty
  | .decl kind list => do
    let list ← Declarator.eliminateList list
    if removes then discard (removeDeclarators list)
    return .decl kind list
  | .expr e => return .expr (← e.eliminate .value)

def Case.eliminate : Case → Pass Case
  | .mk test body => do
    let test ← Expr.eliminateOpt .value test
    return .mk test (← Stmt.eliminateList false body)

def Case.eliminateList : List Case → Pass (List Case)
  | [] => return []
  | c :: cs => do
    let c ← c.eliminate
    return c :: (← Case.eliminateList cs)

end

end Deadwood
