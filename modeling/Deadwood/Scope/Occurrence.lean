import Deadwood.Scope.Basic

/-!
# Occurrences of identifiers

`Stmt.fold` collects what a fold says of the identifiers of a piece of syntax, in the order they are
written.  Keys of properties that are not computed hold no identifiers.
-/

namespace Deadwood

/-- The role of an identifier. -/
inductive Role
  /-- It is read or assigned to. -/
  | reference
  | binding (kind : BindingKind)
  /-- It names a local binding in a list of exports. -/
  | exported
  | label
  /-- It names a property after a dot. -/
  | property
deriving DecidableEq, Repr, Inhabited

/-- How to collect from identifiers, and what to make of the syntax around what is collected. -/
structure Fold (α : Type) where
  empty : α
  append : α → α → α
  ident : Role → Ident → α
  expr : Expr → α → α := fun _ a => a
  stmt : Stmt → α → α := fun _ a => a
  declarator : Declarator → α → α := fun _ a => a
  /-- A declarator that is an element of a pattern or a parameter. -/
  element : Declarator → α → α := declarator
  funcDecl : Func → α → α := fun _ a => a
  clsDecl : Class → α → α := fun _ a => a
  property : Property → α → α := fun _ a => a
  /-- An element left out of a pattern. -/
  hole : α := empty

variable {α : Type}

def Fold.optIdent (F : Fold α) (role : Role) : Option Ident → α
  | none => F.empty
  | some id => F.ident role id

def Fold.all (F : Fold α) {β : Type} (f : β → α) : List β → α
  | [] => F.empty
  | b :: bs => F.append (f b) (F.all f bs)

mutual

def Expr.fold (F : Fold α) (e : Expr) : α :=
  F.expr e <|
    match e with
    | .hole | .this | .super | .null | .bool _ | .number .. | .string _ | .regExp .. => F.empty
    | .ident id => F.ident .reference id
    | .template tag _ es => F.append (Expr.foldOpt F tag) (Expr.foldList F es)
    | .array es | .seq es => Expr.foldList F es
    | .object ps => Property.foldList F ps
    | .spread e | .unary _ e | .update _ e _ | .await e => e.fold F
    | .func f => f.fold F .own
    | .arrow params rest body _ =>
      F.append (Declarator.foldElems F .param params)
        (F.append (Pattern.foldOpt F .param rest) (body.fold F))
    | .arrowBlock params rest body _ =>
      F.append (Declarator.foldElems F .param params)
        (F.append (Pattern.foldOpt F .param rest) (Stmt.foldList F body))
    | .cls c => c.fold F .own
    | .binary _ l r | .assign _ l r => F.append (l.fold F) (r.fold F)
    | .cond test yes no => F.append (test.fold F) (F.append (yes.fold F) (no.fold F))
    | .call callee args _ | .new callee args => F.append (callee.fold F) (Expr.foldList F args)
    | .member object name _ => F.append (object.fold F) (F.ident .property name)
    | .index object key _ => F.append (object.fold F) (key.fold F)
    | .yield arg _ => Expr.foldOpt F arg

def Expr.foldOpt (F : Fold α) : Option Expr → α
  | none => F.empty
  | some e => e.fold F

def Expr.foldList (F : Fold α) : List Expr → α
  | [] => F.empty
  | e :: es => F.append (e.fold F) (Expr.foldList F es)

def Property.fold (F : Fold α) (p : Property) : α :=
  F.property p <|
    match p with
    | .short id init => F.append (F.ident .reference id) (Expr.foldOpt F init)
    | .keyed key _ value computed =>
      F.append (if computed then key.fold F else F.empty) (value.fold F)
    | .spread e => e.fold F

def Property.foldList (F : Fold α) : List Property → α
  | [] => F.empty
  | p :: ps => F.append (p.fold F) (Property.foldList F ps)

/-- Collects from a function whose name is of the given kind. -/
def Func.fold (F : Fold α) (kind : BindingKind) : Func → α
  | .mk name params rest body _ _ =>
    F.append (F.optIdent (.binding kind) name) <|
      F.append (Declarator.foldElems F .param params) <|
        F.append (Pattern.foldOpt F .param rest) (Stmt.foldList F body)

/-- Collects from a class whose name is of the given kind. -/
def Class.fold (F : Fold α) (kind : BindingKind) : Class → α
  | .mk name superclass body decorators =>
    F.append (Expr.foldList F decorators) <|
      F.append (F.optIdent (.binding kind) name) <|
        F.append (Expr.foldOpt F superclass) (ClassElement.foldList F body)

def ClassElement.fold (F : Fold α) : ClassElement → α
  | .field key init computed _ =>
    F.append (if computed then key.fold F else F.empty) (Expr.foldOpt F init)
  | .method key _ body computed _ =>
    F.append (if computed then key.fold F else F.empty) (body.fold F .own)
  | .block body => Stmt.foldList F body

def ClassElement.foldList (F : Fold α) : List ClassElement → α
  | [] => F.empty
  | e :: es => F.append (e.fold F) (ClassElement.foldList F es)

def Pattern.fold (F : Fold α) (kind : BindingKind) : Pattern → α
  | .hole => F.hole
  | .ident id => F.ident (.binding kind) id
  | .array elems rest => F.append (Declarator.foldElems F kind elems) (Pattern.foldOpt F kind rest)
  | .object props rest => F.append (PatternProp.foldList F kind props) (Pattern.foldOpt F kind rest)

def Pattern.foldOpt (F : Fold α) (kind : BindingKind) : Option Pattern → α
  | none => F.empty
  | some p => p.fold F kind

def Declarator.fold (F : Fold α) (kind : BindingKind) (d : Declarator) : α :=
  F.declarator d <|
    match d with
    | .mk _ target init => F.append (target.fold F kind) (Expr.foldOpt F init)

def Declarator.foldList (F : Fold α) (kind : BindingKind) : List Declarator → α
  | [] => F.empty
  | d :: ds => F.append (d.fold F kind) (Declarator.foldList F kind ds)

/-- Collects from an element of a pattern or a parameter. -/
def Declarator.foldElem (F : Fold α) (kind : BindingKind) (d : Declarator) : α :=
  F.element d <|
    match d with
    | .mk _ target init => F.append (target.fold F kind) (Expr.foldOpt F init)

def Declarator.foldElems (F : Fold α) (kind : BindingKind) : List Declarator → α
  | [] => F.empty
  | d :: ds => F.append (d.foldElem F kind) (Declarator.foldElems F kind ds)

def PatternProp.fold (F : Fold α) (kind : BindingKind) : PatternProp → α
  | .mk key computed _ value =>
    F.append (if computed then key.fold F else F.empty) (value.foldElem F kind)

def PatternProp.foldList (F : Fold α) (kind : BindingKind) : List PatternProp → α
  | [] => F.empty
  | p :: ps => F.append (p.fold F kind) (PatternProp.foldList F kind ps)

def Stmt.fold (F : Fold α) (s : Stmt) : α :=
  F.stmt s <|
    match s with
    | .empty | .debugger | .exportAll .. => F.empty
    | .block body => Stmt.foldList F body
    | .expr e | .throw e | .exportDefaultExpr e => e.fold F
    | .cond test yes no => F.append (test.fold F) (F.append (yes.fold F) (Stmt.foldOpt F no))
    | .ret arg => Expr.foldOpt F arg
    | .brk label | .cont label => F.optIdent .label label
    | .labelled label body => F.append (F.ident .label label) (body.fold F)
    | .while test body => F.append (test.fold F) (body.fold F)
    | .doWhile body test => F.append (body.fold F) (test.fold F)
    | .for head test update body =>
      F.append (head.fold F) <|
        F.append (Expr.foldOpt F test) (F.append (Expr.foldOpt F update) (body.fold F))
    | .forIn head source body | .forOf head source body _ =>
      F.append (head.fold F) (F.append (source.fold F) (body.fold F))
    | .switch subject cases => F.append (subject.fold F) (Case.foldList F cases)
    | .tryCatch body param handler finalizer =>
      F.append (Stmt.foldList F body) <|
        F.append (Pattern.foldOpt F .caught param) <|
          F.append (Stmt.foldList F handler) (Stmt.foldOptList F finalizer)
    | .tryFinally body finalizer => F.append (Stmt.foldList F body) (Stmt.foldList F finalizer)
    | .decl kind list => Declarator.foldList F kind.bindingKind list
    | .func f => F.funcDecl f (f.fold F .func)
    | .cls c => F.clsDecl c (c.fold F .cls)
    | .importDecl specs _ => F.all (fun s => F.ident (.binding .module) s.binder) specs
    | .exportDecl decl | .exportDefault decl => decl.fold F
    | .exportNames specs _ => F.all (fun s => F.ident .exported s.source) specs

def Stmt.foldOpt (F : Fold α) : Option Stmt → α
  | none => F.empty
  | some s => s.fold F

def Stmt.foldList (F : Fold α) : List Stmt → α
  | [] => F.empty
  | s :: ss => F.append (s.fold F) (Stmt.foldList F ss)

def Stmt.foldOptList (F : Fold α) : Option (List Stmt) → α
  | none => F.empty
  | some ss => Stmt.foldList F ss

def ForHead.fold (F : Fold α) : ForHead → α
  | .empty => F.empty
  | .decl kind list => Declarator.foldList F kind.bindingKind list
  | .expr e => e.fold F

def Case.fold (F : Fold α) : Case → α
  | .mk test body => F.append (Expr.foldOpt F test) (Stmt.foldList F body)

def Case.foldList (F : Fold α) : List Case → α
  | [] => F.empty
  | c :: cs => F.append (c.fold F) (Case.foldList F cs)

end

def Program.fold (F : Fold α) (p : Program) : α := Stmt.foldList F p.body

/-! ### Lists of identifiers -/

namespace Fold

/-- Collects identifiers by their role. -/
def idents (p : Role → Bool) : Fold (List Ident) where
  empty := []
  append := (· ++ ·)
  ident role id := if p role then [id] else []

/-- Collects whether something holds of an expression. -/
def anyExpr (p : Expr → Bool) : Fold Bool where
  empty := false
  append := (· || ·)
  ident _ _ := false
  expr e b := p e || b

end Fold

/-- The identifiers of a program in the order they are written. -/
def Program.idents (p : Program) : List Ident := p.fold (Fold.idents fun _ => true)

/-- The identifiers that an expression reads or assigns to. -/
def Expr.references (e : Expr) : List Ident := e.fold (Fold.idents (· = .reference))

/-- Whether evaluating an expression creates an object, which makes the place of evaluation
observable. -/
def Expr.allocates (e : Expr) : Bool :=
  e.fold <| Fold.anyExpr fun
    | .func _ | .arrow .. | .arrowBlock .. | .cls _ | .object _ | .array _ | .regExp .. => true
    | _ => false

/-- The names that a statement declares by `var`, outside of expressions and nested functions. -/
def Stmt.varNames (s : Stmt) : List Ident :=
  s.fold { Fold.idents (· = .binding .var) with
    expr := fun _ _ => []
    funcDecl := fun _ _ => []
    clsDecl := fun _ _ => [] }

end Deadwood
