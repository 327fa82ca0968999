import Deadwood.Scope.Basic

/-!
# The scope structure of syntax

`Program.walkScopes` goes through a program in the order in which its names come into being and tells a
visitor about scopes, declarations and references.  What a visitor returns replaces the identifiers of
the program.
-/

namespace Deadwood

/-- What is done at the scopes and identifiers of a program. -/
structure ScopeVisitor (m : Type → Type) where
  /-- The site of a declarator. -/
  site : Site → m Site
  /-- A declaration; the flag tells whether it stands in the head of a loop over the parts of a value,
  and the origin is given the site of the identifier. -/
  declare : Bool → Ident → BindingKind → (Site → Origin) → m Ident
  /-- A reference; the flag tells whether it is assigned to. -/
  refer : Bool → Ident → m Ident
  /-- A reference from a list of exports. -/
  exportName : Ident → m Ident
  /-- Identifiers that an exported declaration has declared. -/
  exportDeclared : List Ident → m Unit
  /-- A scope around what is visited. -/
  inScope : {α : Type} → ScopeKind → Opener → m α → m α
  /-- The statement around the declarations that come next. -/
  contain : Option Container → m Unit
  /-- A call whose callee is the given identifier. -/
  called : Ident → m Unit

namespace ScopeWalk

/-- What the syntax around an expression says of it. -/
structure Context where
  /-- Whether it is assigned to. -/
  writing : Bool := false
  /-- Whether it stands in the head of a loop over the parts of a value. -/
  inHead : Bool := false
deriving DecidableEq, Repr, Inhabited

def Context.read (cx : Context) : Context := { cx with writing := false }

def Context.write (cx : Context) : Context := { cx with writing := true }

end ScopeWalk

def Func.withName (name : Option Ident) : Func → Func
  | .mk _ params rest body async generator => .mk name params rest body async generator

def Class.withName (name : Option Ident) : Class → Class
  | .mk _ superclass body decorators => .mk name superclass body decorators

open ScopeWalk

variable {m : Type → Type} [Monad m]

/-- The name of a function or class expression, which is bound inside the expression. -/
def ScopeVisitor.ownName (v : ScopeVisitor m) (cx : Context) (isOwn : Bool) (origin : Origin) :
    Option Ident → m (Option Ident)
  | some id =>
    if isOwn then return some (← v.declare cx.inHead id .own fun _ => origin) else return some id
  | none => return none

/-- Tells of a call by name. -/
def ScopeVisitor.callOf (v : ScopeVisitor m) : Expr → m Unit
  | .ident id => v.called id
  | _ => return ()

mutual

def Expr.walkScopes (v : ScopeVisitor m) (cx : Context) : Expr → m Expr
  | .hole => return .hole
  | .ident id => return .ident (← v.refer cx.writing id)
  | .this => return .this
  | .super => return .super
  | .null => return .null
  | .bool b => return .bool b
  | .number value raw => return .number value raw
  | .string lit => return .string lit
  | .regExp pattern flags => return .regExp pattern flags
  | .template tag chunks es => do
    let tag ← Expr.walkScopesOpt v cx tag
    return .template tag chunks (← Expr.walkScopesList v cx es)
  | .array es => return .array (← Expr.walkScopesList v cx es)
  | .object ps => return .object (← Property.walkScopesList v cx ps)
  | .spread e => return .spread (← e.walkScopes v cx)
  | .func f => return .func (← f.walkScopes v cx true)
  | .arrow params rest body async =>
    v.inScope .function .arrow do
      v.contain none
      let params ← Declarator.walkScopesElems v cx.read .param .arrowLiteral params
      let rest ← Pattern.walkScopesOpt v cx.read .param .arrowLiteral rest
      return .arrow params rest (← body.walkScopes v cx.read) async
  | .arrowBlock params rest body async =>
    v.inScope .function .arrow do
      v.contain none
      let params ← Declarator.walkScopesElems v cx.read .param .arrowLiteral params
      let rest ← Pattern.walkScopesOpt v cx.read .param .arrowLiteral rest
      return .arrowBlock params rest (← Stmt.walkScopesList v cx.read body) async
  | .cls c => return .cls (← c.walkScopes v cx true)
  | .unary op e => return .unary op (← e.walkScopes v cx)
  | .update op e post => return .update op (← e.walkScopes v cx.write) post
  | .binary op l r => do
    let l ← l.walkScopes v cx
    return .binary op l (← r.walkScopes v cx)
  | .assign op l r => do
    let l ← l.walkScopes v cx.write
    return .assign op l (← r.walkScopes v cx.read)
  | .cond test yes no => do
    let test ← test.walkScopes v cx
    let yes ← yes.walkScopes v cx
    return .cond test yes (← no.walkScopes v cx)
  | .seq es => return .seq (← Expr.walkScopesList v cx es)
  | .call callee args optional => do
    let callee ← callee.walkScopes v cx.read
    let args ← Expr.walkScopesList v cx.read args
    v.callOf callee
    return .call callee args optional
  | .new callee args => do
    let callee ← callee.walkScopes v cx
    return .new callee (← Expr.walkScopesList v cx args)
  | .member object name optional => return .member (← object.walkScopes v cx.read) name optional
  | .index object key optional => do
    let object ← object.walkScopes v cx.read
    return .index object (← key.walkScopes v cx.read) optional
  | .await e => return .await (← e.walkScopes v cx)
  | .yield arg delegate => return .yield (← Expr.walkScopesOpt v cx arg) delegate

def Expr.walkScopesOpt (v : ScopeVisitor m) (cx : Context) : Option Expr → m (Option Expr)
  | none => return none
  | some e => return some (← e.walkScopes v cx)

def Expr.walkScopesList (v : ScopeVisitor m) (cx : Context) : List Expr → m (List Expr)
  | [] => return []
  | e :: es => do
    let e ← e.walkScopes v cx
    return e :: (← Expr.walkScopesList v cx es)

def Property.walkScopes (v : ScopeVisitor m) (cx : Context) : Property → m Property
  | .short id init => do
    let id ← v.refer cx.writing id
    return .short id (← Expr.walkScopesOpt v cx.read init)
  | .keyed key kind value computed => do
    let key ← if computed then key.walkScopes v cx.read else pure key
    return .keyed key kind (← value.walkScopes v cx) computed
  | .spread e => return .spread (← e.walkScopes v cx)

def Property.walkScopesList (v : ScopeVisitor m) (cx : Context) : List Property → m (List Property)
  | [] => return []
  | p :: ps => do
    let p ← p.walkScopes v cx
    return p :: (← Property.walkScopesList v cx ps)

/-- The inside of a function; `isOwn` tells whether its name is bound there. -/
def Func.walkScopes (v : ScopeVisitor m) (cx : Context) (isOwn : Bool) : Func → m Func
  | .mk name params rest body async generator =>
    v.inScope .function .function do
      let name ← v.ownName cx isOwn .funcLiteral name
      v.contain none
      let params ← Declarator.walkScopesElems v cx.read .param .funcLiteral params
      let rest ← Pattern.walkScopesOpt v cx.read .param .funcLiteral rest
      return .mk name params rest (← Stmt.walkScopesList v cx.read body) async generator

/-- The inside of a class; `isOwn` tells whether its name is bound there. -/
def Class.walkScopes (v : ScopeVisitor m) (cx : Context) (isOwn : Bool) : Class → m Class
  | .mk name superclass body decorators => do
    let decorators ← Expr.walkScopesList v cx.read decorators
    let superclass ← Expr.walkScopesOpt v cx.read superclass
    v.inScope .cls .cls do
      let name ← v.ownName cx isOwn .clsLiteral name
      return .mk name superclass (← ClassElement.walkScopesList v cx.read body) decorators

def ClassElement.walkScopes (v : ScopeVisitor m) (cx : Context) : ClassElement → m ClassElement
  | .field key init computed isStatic => do
    let key ← if computed then key.walkScopes v cx else pure key
    return .field key (← Expr.walkScopesOpt v cx init) computed isStatic
  | .method key kind body computed isStatic => do
    let key ← if computed then key.walkScopes v cx else pure key
    return .method key kind (← body.walkScopes v cx true) computed isStatic
  | .block body => return .block (← v.inScope .block .block (Stmt.walkScopesList v cx body))

def ClassElement.walkScopesList (v : ScopeVisitor m) (cx : Context) :
    List ClassElement → m (List ClassElement)
  | [] => return []
  | e :: es => do
    let e ← e.walkScopes v cx
    return e :: (← ClassElement.walkScopesList v cx es)

/-- A binding target that declares names of the given kind. -/
def Pattern.walkScopes (v : ScopeVisitor m) (cx : Context) (kind : BindingKind) (origin : Origin) :
    Pattern → m Pattern
  | .hole => return .hole
  | .ident id => return .ident (← v.declare cx.inHead id kind fun _ => origin)
  | .array elems rest => do
    let elems ← Declarator.walkScopesElems v cx kind origin elems
    return .array elems (← Pattern.walkScopesOpt v cx kind origin rest)
  | .object props rest => do
    let props ← PatternProp.walkScopesList v cx kind origin props
    return .object props (← Pattern.walkScopesOpt v cx kind origin rest)

def Pattern.walkScopesOpt (v : ScopeVisitor m) (cx : Context) (kind : BindingKind)
    (origin : Origin) : Option Pattern → m (Option Pattern)
  | none => return none
  | some p => return some (← p.walkScopes v cx kind origin)

/-- An element of a pattern or parameter list; its default comes before its names. -/
def Declarator.walkScopesElem (v : ScopeVisitor m) (cx : Context) (kind : BindingKind)
    (origin : Origin) : Declarator → m Declarator
  | .mk site target init => do
    let site ← v.site site
    let init ← Expr.walkScopesOpt v cx init
    return .mk site (← target.walkScopes v cx kind origin) init

def Declarator.walkScopesElems (v : ScopeVisitor m) (cx : Context) (kind : BindingKind)
    (origin : Origin) : List Declarator → m (List Declarator)
  | [] => return []
  | d :: ds => do
    let d ← d.walkScopesElem v cx kind origin
    return d :: (← Declarator.walkScopesElems v cx kind origin ds)

def PatternProp.walkScopes (v : ScopeVisitor m) (cx : Context) (kind : BindingKind)
    (origin : Origin) : PatternProp → m PatternProp
  | .mk key computed shorthand value => do
    let key ← if computed then key.walkScopes v cx else pure key
    return .mk key computed shorthand (← value.walkScopesElem v cx kind origin)

def PatternProp.walkScopesList (v : ScopeVisitor m) (cx : Context) (kind : BindingKind)
    (origin : Origin) : List PatternProp → m (List PatternProp)
  | [] => return []
  | p :: ps => do
    let p ← p.walkScopes v cx kind origin
    return p :: (← PatternProp.walkScopesList v cx kind origin ps)

/-- The declarators of a variable declaration; an initializer comes before the names. -/
def Declarator.walkScopesDecls (v : ScopeVisitor m) (cx : Context) (kind : DeclKind)
    (isExported : Bool) : List Declarator → m (List Declarator)
  | [] => return []
  | .mk site target init :: ds => do
    let site ← v.site site
    let init ← Expr.walkScopesOpt v cx init
    v.contain (some .decl)
    let target ← target.walkScopes v cx kind.bindingKind (.declarator site)
    if isExported then v.exportDeclared target.names
    return .mk site target init :: (← Declarator.walkScopesDecls v cx kind isExported ds)

/-- A statement; `container` is the export around it, if there is one. -/
def Stmt.walkScopes (v : ScopeVisitor m) (cx : Context) (container : Option Container) :
    Stmt → m Stmt
  | .empty => return .empty
  | .debugger => return .debugger
  | .block body => return .block (← v.inScope .block .block (Stmt.walkScopesList v cx body))
  | .expr e => return .expr (← e.walkScopes v cx)
  | .cond test yes no => do
    let test ← test.walkScopes v cx
    let yes ← yes.walkScopes v cx none
    return .cond test yes (← Stmt.walkScopesOpt v cx no)
  | .ret arg => return .ret (← Expr.walkScopesOpt v cx arg)
  | .throw arg => return .throw (← arg.walkScopes v cx)
  | .brk label => return .brk label
  | .cont label => return .cont label
  | .labelled label body => return .labelled label (← body.walkScopes v cx none)
  | .while test body =>
    v.inScope .block .whileLoop do
      let test ← test.walkScopes v cx
      return .while test (← body.walkScopes v cx none)
  | .doWhile body test =>
    v.inScope .block .doLoop do
      let body ← body.walkScopes v cx none
      return .doWhile body (← test.walkScopes v cx)
  | .for head test update body =>
    v.inScope .block .forLoop do
      let head ← head.walkScopes v cx
      let test ← Expr.walkScopesOpt v cx test
      let update ← Expr.walkScopesOpt v cx update
      return .for head test update (← body.walkScopes v cx none)
  | .forIn head source body =>
    v.inScope .block .forIn do
      let head ← head.walkScopes v { writing := true, inHead := true }
      let source ← source.walkScopes v cx
      return .forIn head source (← body.walkScopes v cx none)
  | .forOf head source body await =>
    v.inScope .block .forOf do
      let head ← head.walkScopes v { writing := true, inHead := true }
      let source ← source.walkScopes v cx
      return .forOf head source (← body.walkScopes v cx none) await
  | .switch subject cases => do
    let subject ← subject.walkScopes v cx
    return .switch subject (← v.inScope .block .switch (Case.walkScopesList v cx cases))
  | .tryCatch body param handler finalizer => do
    let body ← v.inScope .block .block (Stmt.walkScopesList v cx body)
    let (param, handler) ← v.inScope .block .handler do
      if param.isSome then v.contain none
      let param ← Pattern.walkScopesOpt v cx .caught .handler param
      return (param, ← Stmt.walkScopesList v cx handler)
    return .tryCatch body param handler (← Stmt.walkScopesBlock v cx finalizer)
  | .tryFinally body finalizer => do
    let body ← v.inScope .block .block (Stmt.walkScopesList v cx body)
    return .tryFinally body (← v.inScope .block .block (Stmt.walkScopesList v cx finalizer))
  | .decl kind list =>
    return .decl kind (← Declarator.walkScopesDecls v cx kind container.isSome list)
  | .func f => do
    v.contain container
    let name ← f.name.mapM fun id => v.declare cx.inHead id .func .func
    let f ← f.walkScopes v cx false
    return .func (f.withName name)
  | .cls c => do
    let c' ← c.walkScopes v cx false
    let name ← c.name.mapM fun id => do
      v.contain container
      v.declare cx.inHead id .cls .cls
    return .cls (c'.withName name)
  | .importDecl specs source => do
    let specs ← specs.mapM fun s => do
      v.contain (some .importDecl)
      return { s with binder := ← v.declare cx.inHead s.binder .module fun _ => .importDecl }
    return .importDecl specs source
  | .exportDecl decl => return .exportDecl (← decl.walkScopes v cx (some .exportDecl))
  | .exportNames specs source => do
    if source.isSome then return .exportNames specs source
    let specs ← specs.mapM fun s => do
      return { s with source := ← v.exportName s.source }
    return .exportNames specs source
  | .exportAll name source => return .exportAll name source
  | .exportDefault decl => return .exportDefault (← decl.walkScopes v cx (some .exportDefault))
  | .exportDefaultExpr e => return .exportDefaultExpr (← e.walkScopes v cx)

def Stmt.walkScopesOpt (v : ScopeVisitor m) (cx : Context) : Option Stmt → m (Option Stmt)
  | none => return none
  | some s => return some (← s.walkScopes v cx none)

def Stmt.walkScopesList (v : ScopeVisitor m) (cx : Context) : List Stmt → m (List Stmt)
  | [] => return []
  | s :: ss => do
    let s ← s.walkScopes v cx none
    return s :: (← Stmt.walkScopesList v cx ss)

def Stmt.walkScopesBlock (v : ScopeVisitor m) (cx : Context) :
    Option (List Stmt) → m (Option (List Stmt))
  | none => return none
  | some body => return some (← v.inScope .block .block (Stmt.walkScopesList v cx body))

/-- The head of a loop.  Whether its names are assigned to is up to the context. -/
def ForHead.walkScopes (v : ScopeVisitor m) (cx : Context) : ForHead → m ForHead
  | .empty => return .empty
  | .decl kind list => return .decl kind (← Declarator.walkScopesDecls v cx.read kind false list)
  | .expr e => return .expr (← e.walkScopes v cx)

def Case.walkScopes (v : ScopeVisitor m) (cx : Context) : Case → m Case
  | .mk test body => do
    let test ← Expr.walkScopesOpt v cx test
    return .mk test (← Stmt.walkScopesList v cx body)

def Case.walkScopesList (v : ScopeVisitor m) (cx : Context) : List Case → m (List Case)
  | [] => return []
  | c :: cs => do
    let c ← c.walkScopes v cx
    return c :: (← Case.walkScopesList v cx cs)

end

/-- Visits the scopes and names of a program. -/
def Program.walkScopes (v : ScopeVisitor m) (p : Program) : m Program :=
  v.inScope .program .program do
    return ⟨← Stmt.walkScopesList v {} p.body⟩

end Deadwood
