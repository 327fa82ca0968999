import Deadwood.Syntax.Operator

/-!
# Programs

The syntax of scripts and modules.  Parentheses leave no trace.  An identifier carries the mark of the
scope that declares it, and identifiers and declarators carry a site that tells one occurrence from
another; both are zero until the program is resolved.
-/

namespace Deadwood

/-- The mark of a scope.  No scope has the mark zero. -/
abbrev Mark := Nat

/-- The number of an occurrence.  No numbered occurrence has the site zero. -/
abbrev Site := Nat

structure Ident where
  name : String
  /-- The scope that declares the name, or zero. -/
  mark : Mark := 0
  site : Site := 0
deriving DecidableEq, Repr, Inhabited

/-- The keyword of a variable declaration. -/
inductive DeclKind
  | var | let_ | const
deriving DecidableEq, Repr, Inhabited

def DeclKind.text : DeclKind → String
  | var => "var"
  | let_ => "let"
  | const => "const"

/-- What a property or method is: a plain value, an accessor, or a method. -/
inductive MemberKind
  | value | get | set | method
deriving DecidableEq, Repr, Inhabited

def MemberKind.text : MemberKind → String
  | value => "value"
  | get => "get"
  | set => "set"
  | method => "method"

/-- A string literal with its spelling, if it came from a source text. -/
structure StringLit where
  value : String
  raw : Option String := none
deriving DecidableEq, Repr, Inhabited

/-- A chunk of template text as written and with its escapes resolved. -/
structure TemplateChunk where
  raw : String
  cooked : String
deriving DecidableEq, Repr, Inhabited

/-- Binds `binder` to the export `imported` of a module; `default` and `*` stand for themselves. -/
structure ImportSpec where
  imported : String
  binder : Ident
deriving DecidableEq, Repr, Inhabited

/-- Exports the name `source` as `exported`. -/
structure ExportSpec where
  source : Ident
  exported : String
deriving DecidableEq, Repr, Inhabited

mutual

inductive Expr
  /-- An element left out of an array literal. -/
  | hole
  | ident (id : Ident)
  | this
  | super
  | null
  | bool (value : Bool)
  | number (value : Float) (raw : Option String)
  | string (lit : StringLit)
  | regExp (pattern flags : String)
  | template (tag : Option Expr) (chunks : List TemplateChunk) (exprs : List Expr)
  | array (elems : List Expr)
  | object (props : List Property)
  | spread (e : Expr)
  | func (f : Func)
  | arrow (params : List Declarator) (rest : Option Pattern) (body : Expr) (async : Bool)
  | arrowBlock (params : List Declarator) (rest : Option Pattern) (body : List Stmt) (async : Bool)
  | cls (c : Class)
  | unary (op : UnaryOp) (e : Expr)
  | update (op : UpdateOp) (e : Expr) (post : Bool)
  | binary (op : BinaryOp) (l r : Expr)
  | assign (op : AssignOp) (l r : Expr)
  | cond (test yes no : Expr)
  | seq (es : List Expr)
  | call (callee : Expr) (args : List Expr) (optional : Bool)
  | new (callee : Expr) (args : List Expr)
  | member (object : Expr) (name : Ident) (optional : Bool)
  | index (object key : Expr) (optional : Bool)
  | await (e : Expr)
  | yield (e : Option Expr) (delegate : Bool)

/-- A property of an object literal. -/
inductive Property
  /-- `name`, or `name = default` in an assignment pattern. -/
  | short (id : Ident) (default : Option Expr)
  | keyed (key : Expr) (kind : MemberKind) (value : Expr) (computed : Bool)
  | spread (e : Expr)

inductive Func
  | mk (name : Option Ident) (params : List Declarator) (rest : Option Pattern) (body : List Stmt)
      (async generator : Bool)

inductive Class
  | mk (name : Option Ident) (superclass : Option Expr) (body : List ClassElement)
      (decorators : List Expr)

inductive ClassElement
  | field (key : Expr) (init : Option Expr) (computed isStatic : Bool)
  | method (key : Expr) (kind : MemberKind) (body : Func) (computed isStatic : Bool)
  | block (body : List Stmt)

/-- What a declaration binds. -/
inductive Pattern
  /-- An element left out of an array pattern. -/
  | hole
  | ident (id : Ident)
  | array (elems : List Declarator) (rest : Option Pattern)
  | object (props : List PatternProp) (rest : Option Pattern)

/-- A binding with its initializer or default. -/
inductive Declarator
  | mk (site : Site) (target : Pattern) (init : Option Expr)

/-- A property of an object pattern. -/
inductive PatternProp
  | mk (key : Expr) (computed shorthand : Bool) (value : Declarator)

inductive Stmt
  | empty
  | debugger
  | block (body : List Stmt)
  | expr (e : Expr)
  | cond (test : Expr) (yes : Stmt) (no : Option Stmt)
  | ret (arg : Option Expr)
  | throw (arg : Expr)
  | brk (label : Option Ident)
  | cont (label : Option Ident)
  | labelled (label : Ident) (body : Stmt)
  | while (test : Expr) (body : Stmt)
  | doWhile (body : Stmt) (test : Expr)
  | for (head : ForHead) (test update : Option Expr) (body : Stmt)
  | forIn (head : ForHead) (source : Expr) (body : Stmt)
  | forOf (head : ForHead) (source : Expr) (body : Stmt) (await : Bool)
  | switch (subject : Expr) (cases : List Case)
  | tryCatch (body : List Stmt) (param : Option Pattern) (handler : List Stmt)
      (finalizer : Option (List Stmt))
  | tryFinally (body finalizer : List Stmt)
  | decl (kind : DeclKind) (list : List Declarator)
  | func (f : Func)
  | cls (c : Class)
  | importDecl (specs : List ImportSpec) (source : StringLit)
  | exportDecl (decl : Stmt)
  | exportNames (specs : List ExportSpec) (source : Option StringLit)
  /-- Exports everything of another module, under one name if `name` is given. -/
  | exportAll (name : Option String) (source : StringLit)
  | exportDefault (decl : Stmt)
  | exportDefaultExpr (e : Expr)

/-- The first part of the head of a `for` loop. -/
inductive ForHead
  | empty
  | decl (kind : DeclKind) (list : List Declarator)
  | expr (e : Expr)

/-- A clause of a `switch`; the one without a test is the default. -/
inductive Case
  | mk (test : Option Expr) (body : List Stmt)

end

instance : Inhabited Expr := ⟨.hole⟩
instance : Inhabited Stmt := ⟨.empty⟩
instance : Inhabited Pattern := ⟨.hole⟩
instance : Inhabited Func := ⟨.mk none [] none [] false false⟩
instance : Inhabited Class := ⟨.mk none none [] []⟩
instance : Inhabited Declarator := ⟨.mk 0 .hole none⟩

structure Program where
  body : List Stmt
deriving Inhabited

end Deadwood
