import Deadwood.Syntax.Access

/-!
# Taking parts out of a program

A removal goes through a program and sets a mark wherever something is to go.  The next slot that the
walk completes takes the mark and drops what it holds: a statement of a list goes, one that stands alone
becomes empty, an expression of a list goes, and the first part of a `for` loop is cleared.
-/

namespace Deadwood

/-- What is to go. -/
structure Removal where
  /-- Sets the mark at an identifier. -/
  marks : Ident → Bool := fun _ => false
  /-- Drops a declarator of a variable declaration. -/
  dropsDeclarator : Site → Bool := fun _ => false
  /-- Whether a variable declaration without declarators is marked. -/
  dropsEmpty : Bool := true
  /-- Marks the declaration of a function, and leaves its inside alone. -/
  dropsFunc : Func → Bool := fun _ => false
  /-- Marks the declaration of a class, and leaves its inside alone. -/
  dropsClass : Class → Bool := fun _ => false
  /-- The function that stands for a function expression, where there is another one. -/
  otherFunc : Func → Option Func := fun _ => none
  /-- The class that stands for a class expression, where there is another one. -/
  otherClass : Class → Option Class := fun _ => none

namespace Removal

/-- The state of a walk is whether the mark is set. -/
abbrev Walk := StateM Bool

def mark : Walk Unit := set true

/-- Takes the mark. -/
def take : Walk Bool := modifyGet fun b => (b, false)

def ident (r : Removal) (id : Ident) : Walk Unit := if r.marks id then mark else return ()

def optIdent (r : Removal) : Option Ident → Walk Unit
  | none => return ()
  | some id => r.ident id

/-- A statement that stands alone. -/
def slot (s : Stmt) : Walk Stmt := return if ← take then .empty else s

/-- The first part of a `for` loop, if there is one. -/
def headSlot : ForHead → Walk ForHead
  | .empty => return .empty
  | head => return if ← take then .empty else head

end Removal

open Removal

mutual

def Expr.remove (r : Removal) : Expr → Walk Expr
  | .hole => return .hole
  | .ident id => do
    r.ident id
    return .ident id
  | .this => return .this
  | .super => return .super
  | .null => return .null
  | .bool b => return .bool b
  | .number value raw => return .number value raw
  | .string lit => return .string lit
  | .regExp pattern flags => return .regExp pattern flags
  | .template tag chunks es => do
    let tag ← Expr.removeOpt r tag
    return .template tag chunks (← Expr.removeList r es)
  | .array es => return .array (← Expr.removeList r es)
  | .object ps => return .object (← Property.removeList r ps)
  | .spread e => return .spread (← e.remove r)
  | .func f =>
    match r.otherFunc f with
    | some g => return .func g
    | none => return .func (← f.remove r)
  | .arrow params rest body async => do
    let params ← Declarator.removeList r params
    let rest ← Pattern.removeOpt r rest
    return .arrow params rest (← body.remove r) async
  | .arrowBlock params rest body async => do
    let params ← Declarator.removeList r params
    let rest ← Pattern.removeOpt r rest
    return .arrowBlock params rest (← Stmt.removeList r body) async
  | .cls c =>
    match r.otherClass c with
    | some d => return .cls d
    | none => return .cls (← c.remove r)
  | .unary op e => return .unary op (← e.remove r)
  | .update op e post => return .update op (← e.remove r) post
  | .binary op x y => do
    let x ← x.remove r
    return .binary op x (← y.remove r)
  | .assign op x y => do
    let x ← x.remove r
    return .assign op x (← y.remove r)
  | .cond test yes no => do
    let test ← test.remove r
    let yes ← yes.remove r
    return .cond test yes (← no.remove r)
  | .seq es => return .seq (← Expr.removeList r es)
  | .call callee args optional => do
    let callee ← callee.remove r
    return .call callee (← Expr.removeList r args) optional
  | .new callee args => do
    let callee ← callee.remove r
    return .new callee (← Expr.removeList r args)
  | .member object name optional => do
    let object ← object.remove r
    r.ident name
    return .member object name optional
  | .index object key optional => do
    let object ← object.remove r
    return .index object (← key.remove r) optional
  | .await e => return .await (← e.remove r)
  | .yield arg delegate => return .yield (← Expr.removeOpt r arg) delegate

def Expr.removeOpt (r : Removal) : Option Expr → Walk (Option Expr)
  | none => return none
  | some e => return some (← e.remove r)

/-- Expressions of a list, without those that take the mark. -/
def Expr.removeList (r : Removal) : List Expr → Walk (List Expr)
  | [] => return []
  | e :: es => do
    let e ← e.remove r
    let gone ← take
    let es ← Expr.removeList r es
    return if gone then es else e :: es

def Property.remove (r : Removal) : Property → Walk Property
  | .short id init => do
    r.ident id
    return .short id (← Expr.removeOpt r init)
  | .keyed key kind value computed => do
    let key ← if computed then key.remove r else pure key
    return .keyed key kind (← value.remove r) computed
  | .spread e => return .spread (← e.remove r)

def Property.removeList (r : Removal) : List Property → Walk (List Property)
  | [] => return []
  | p :: ps => do
    let p ← p.remove r
    return p :: (← Property.removeList r ps)

def Func.remove (r : Removal) : Func → Walk Func
  | .mk name params rest body async generator => do
    r.optIdent name
    let params ← Declarator.removeList r params
    let rest ← Pattern.removeOpt r rest
    return .mk name params rest (← Stmt.removeList r body) async generator

def Class.remove (r : Removal) : Class → Walk Class
  | .mk name superclass body decorators => do
    let decorators ← Expr.removeEach r decorators
    r.optIdent name
    let superclass ← Expr.removeOpt r superclass
    return .mk name superclass (← ClassElement.removeList r body) decorators

/-- Expressions that stand apart and take no mark. -/
def Expr.removeEach (r : Removal) : List Expr → Walk (List Expr)
  | [] => return []
  | e :: es => do
    let e ← e.remove r
    return e :: (← Expr.removeEach r es)

def ClassElement.remove (r : Removal) : ClassElement → Walk ClassElement
  | .field key init computed isStatic => do
    let key ← if computed then key.remove r else pure key
    return .field key (← Expr.removeOpt r init) computed isStatic
  | .method key kind body computed isStatic => do
    let key ← if computed then key.remove r else pure key
    return .method key kind (← body.remove r) computed isStatic
  | .block body => return .block (← Stmt.removeList r body)

def ClassElement.removeList (r : Removal) : List ClassElement → Walk (List ClassElement)
  | [] => return []
  | e :: es => do
    let e ← e.remove r
    return e :: (← ClassElement.removeList r es)

def Pattern.remove (r : Removal) : Pattern → Walk Pattern
  | .hole => return .hole
  | .ident id => do
    r.ident id
    return .ident id
  | .array elems rest => do
    let elems ← Declarator.removeList r elems
    return .array elems (← Pattern.removeOpt r rest)
  | .object props rest => do
    let props ← PatternProp.removeList r props
    return .object props (← Pattern.removeOpt r rest)

def Pattern.removeOpt (r : Removal) : Option Pattern → Walk (Option Pattern)
  | none => return none
  | some p => return some (← p.remove r)

def Declarator.remove (r : Removal) : Declarator → Walk Declarator
  | .mk site target init => do
    let target ← target.remove r
    return .mk site target (← Expr.removeOpt r init)

/-- Parameters and elements of a pattern. -/
def Declarator.removeList (r : Removal) : List Declarator → Walk (List Declarator)
  | [] => return []
  | d :: ds => do
    let d ← d.remove r
    return d :: (← Declarator.removeList r ds)

/-- The declarators of a variable declaration, without those to drop. -/
def Declarator.removeDecls (r : Removal) : List Declarator → Walk (List Declarator)
  | [] => return []
  | d :: ds =>
    if r.dropsDeclarator d.site then Declarator.removeDecls r ds
    else do
      let d ← d.remove r
      return d :: (← Declarator.removeDecls r ds)

def PatternProp.remove (r : Removal) : PatternProp → Walk PatternProp
  | .mk key computed shorthand value => do
    let key ← if computed then key.remove r else pure key
    return .mk key computed shorthand (← value.remove r)

def PatternProp.removeList (r : Removal) : List PatternProp → Walk (List PatternProp)
  | [] => return []
  | p :: ps => do
    let p ← p.remove r
    return p :: (← PatternProp.removeList r ps)

def Stmt.remove (r : Removal) : Stmt → Walk Stmt
  | .empty => return .empty
  | .debugger => return .debugger
  | .block body => return .block (← Stmt.removeList r body)
  | .expr e => return .expr (← e.remove r)
  | .cond test yes no => do
    let test ← test.remove r
    let yes ← slot (← yes.remove r)
    return .cond test yes (← Stmt.removeOpt r no)
  | .ret arg => return .ret (← Expr.removeOpt r arg)
  | .throw arg => return .throw (← arg.remove r)
  | .brk label => do
    r.optIdent label
    return .brk label
  | .cont label => do
    r.optIdent label
    return .cont label
  | .labelled label body => do
    r.ident label
    return .labelled label (← slot (← body.remove r))
  | .while test body => do
    let test ← test.remove r
    return .while test (← slot (← body.remove r))
  | .doWhile body test => do
    let body ← slot (← body.remove r)
    return .doWhile body (← test.remove r)
  | .for head test update body => do
    let head ← headSlot (← head.remove r)
    let test ← Expr.removeOpt r test
    let update ← Expr.removeOpt r update
    return .for head test update (← slot (← body.remove r))
  | .forIn head source body => do
    let head ← head.remove r
    let source ← source.remove r
    return .forIn head source (← slot (← body.remove r))
  | .forOf head source body await => do
    let head ← head.remove r
    let source ← source.remove r
    return .forOf head source (← slot (← body.remove r)) await
  | .switch subject cases => do
    let subject ← subject.remove r
    return .switch subject (← Case.removeList r cases)
  | .tryCatch body param handler finalizer => do
    let body ← Stmt.removeList r body
    let param ← Pattern.removeOpt r param
    let handler ← Stmt.removeList r handler
    return .tryCatch body param handler (← Stmt.removeOptList r finalizer)
  | .tryFinally body finalizer => do
    let body ← Stmt.removeList r body
    return .tryFinally body (← Stmt.removeList r finalizer)
  | .decl kind list => do
    let list ← Declarator.removeDecls r list
    if r.dropsEmpty && list.isEmpty then mark
    return .decl kind list
  | .func f =>
    if r.dropsFunc f then do
      mark
      return .func f
    else return .func (← f.remove r)
  | .cls c =>
    if r.dropsClass c then do
      mark
      return .cls c
    else return .cls (← c.remove r)
  | .importDecl specs source => do
    specs.forM fun s => r.ident s.binder
    return .importDecl specs source
  | .exportDecl decl => return .exportDecl (← slot (← decl.remove r))
  | .exportNames specs source => do
    specs.forM fun s => r.ident s.source
    return .exportNames specs source
  | .exportAll name source => return .exportAll name source
  | .exportDefault decl => return .exportDefault (← slot (← decl.remove r))
  | .exportDefaultExpr e => return .exportDefaultExpr (← e.remove r)

def Stmt.removeOpt (r : Removal) : Option Stmt → Walk (Option Stmt)
  | none => return none
  | some s => return some (← slot (← s.remove r))

/-- Statements of a list, without those that take the mark. -/
def Stmt.removeList (r : Removal) : List Stmt → Walk (List Stmt)
  | [] => return []
  | s :: ss => do
    let s ← s.remove r
    let gone ← take
    let ss ← Stmt.removeList r ss
    return if gone then ss else s :: ss

def Stmt.removeOptList (r : Removal) : Option (List Stmt) → Walk (Option (List Stmt))
  | none => return none
  | some ss => return some (← Stmt.removeList r ss)

def ForHead.remove (r : Removal) : ForHead → Walk ForHead
  | .empty => return .empty
  | .decl kind list => do
    let list ← Declarator.removeDecls r list
    if r.dropsEmpty && list.isEmpty then mark
    return .decl kind list
  | .expr e => return .expr (← e.remove r)

def Case.remove (r : Removal) : Case → Walk Case
  | .mk test body => do
    let test ← Expr.removeOpt r test
    return .mk test (← Stmt.removeList r body)

def Case.removeList (r : Removal) : List Case → Walk (List Case)
  | [] => return []
  | c :: cs => do
    let c ← c.remove r
    return c :: (← Case.removeList r cs)

end

/-- The program without what is to go. -/
def Program.remove (r : Removal) (p : Program) : Program :=
  { body := ((Stmt.removeList r p.body).run false).1 }

/-- The program after identifiers of the given names have set the mark. -/
def Program.removeNames (names : List String) (p : Program) : Program :=
  p.remove { marks := fun id => names.contains id.name }

/-- Declarations that are dead: declarators of variable declarations, which are known by their sites, and declarations
of functions and classes. -/
structure Dead where
  isEmpty : Bool
  declarator : Site → Bool
  func : Func → Bool
  cls : Class → Bool
  /-- If there are none, no declaration is among them. -/
  alive : isEmpty = true → (∀ σ, declarator σ = false) ∧ (∀ f, func f = false) ∧ ∀ c, cls c = false

/-- Drops what is dead. -/
def Dead.removal (d : Dead) : Removal where
  dropsDeclarator := d.declarator
  dropsFunc := d.func
  dropsClass := d.cls

/-- Takes dead declarations out of a program, and variable declarations that have no declarators left. -/
def Program.sweep (d : Dead) (p : Program) : Program := if d.isEmpty then p else p.remove d.removal

end Deadwood
