import Deadwood.Syntax.Access

/-!
# Scopes and bindings

A resolved program has a table of scopes and a table of bindings.  The scope with mark `n` stands at
index `n - 1`; every scope knows the marks of the scopes around it, from the inside out.
-/

namespace Deadwood

/-- How a name was declared. -/
inductive BindingKind
  | var | let_ | const | func | cls | param | caught | module
  /-- The name of a function or class expression, bound inside the expression itself. -/
  | own
deriving DecidableEq, Repr, Inhabited

namespace BindingKind

def text : BindingKind → String
  | var => "var"
  | let_ => "let"
  | const => "const"
  | func => "function"
  | cls => "class"
  | param => "param"
  | caught => "catch"
  | module => "module"
  | own => "local"

/-- Whether a name of this kind can be used from the start of its scope. -/
def isHoisted : BindingKind → Bool
  | var | let_ | const | cls => false
  | _ => true

/-- Whether a name of this kind belongs to the syntax around it and has no declaration of its own. -/
def isFixed : BindingKind → Bool
  | param | module | caught | own => true
  | _ => false

end BindingKind

def DeclKind.bindingKind : DeclKind → BindingKind
  | var => .var
  | let_ => .let_
  | const => .const

inductive ScopeKind
  | program | function | block | cls
deriving DecidableEq, Repr, Inhabited

def ScopeKind.text : ScopeKind → String
  | program => "program"
  | function => "function"
  | block => "block"
  | cls => "class"

/-- The syntax that opens a scope. -/
inductive Opener
  | program | function | arrow | cls | block | handler | switch | whileLoop | doLoop | forLoop | forIn
  | forOf
deriving DecidableEq, Repr, Inhabited

/-- The syntax that declares a name, with its site where it can be taken out of the program: the site
of a declarator, or that of the name of a function or class declaration. -/
inductive Origin
  | declarator (site : Site)
  | func (site : Site)
  | cls (site : Site)
  | importDecl
  | handler
  | funcLiteral
  | arrowLiteral
  | clsLiteral
deriving DecidableEq, Repr, Inhabited

/-- The site of the syntax that goes with a declaration. -/
def Origin.site? : Origin → Option Site
  | .declarator site | .func site | .cls site => some site
  | _ => none

/-- The statement around a declaration. -/
inductive Container
  | decl | exportDecl | exportDefault | importDecl
deriving DecidableEq, Repr, Inhabited

def Container.isExport : Container → Bool
  | exportDecl | exportDefault => true
  | _ => false

/-- The index of a binding. -/
abbrev BindingId := Nat

structure Binding where
  name : String
  kind : BindingKind
  /-- The scope that holds the binding. -/
  scope : Mark
  /-- The scope its declaration stands in; a `var` is held further out. -/
  declScope : Mark
  origin : Origin
  container : Option Container
  /-- The number of reads and writes. -/
  references : Nat := 0
  /-- Whether the name has one declaration and no other assignment. -/
  isConstant : Bool := true
  isExported : Bool := false
  /-- Whether the name is used before its declaration, in the order of the text. -/
  isForward : Bool := false
  isInitialized : Bool
deriving DecidableEq, Repr, Inhabited

def Binding.isReferenced (b : Binding) : Bool := 0 < b.references

structure Scope where
  mark : Mark
  kind : ScopeKind
  opener : Opener
  /-- The marks of the scopes around this one, innermost first. -/
  outer : List Mark
  /-- Whether a direct call of `eval` can see the names of this scope. -/
  hasEval : Bool := false
  names : List (String × BindingId) := []
deriving DecidableEq, Repr, Inhabited

namespace Scope

def parent? (s : Scope) : Option Mark := s.outer.head?

/-- The marks of the scope and of those around it, innermost first. -/
def path (s : Scope) : List Mark := s.mark :: s.outer

/-- Whether `s` is `t` or a scope around `t`. -/
def encloses (s t : Scope) : Bool := t.path.contains s.mark

def binding? (s : Scope) (name : String) : Option BindingId := s.names.lookup name

/-- Takes a name out of a scope. -/
def remove (s : Scope) (name : String) : Scope :=
  { s with names := s.names.filter fun p => p.1 ≠ name }

/-- The names of a scope in order. -/
def sortedNames (s : Scope) : List String :=
  (s.names.map Prod.fst).mergeSort (· ≤ ·)

end Scope

/-- What is known of the names of a program. -/
structure Info where
  scopes : Array Scope
  bindings : Array Binding
  /-- The binding that the identifier at a site refers to, and the scope it stands in. -/
  refs : Array (Option (BindingId × Mark))
  /-- The binding that the identifier at a site declares. -/
  decls : Array (Option BindingId)
deriving Inhabited

namespace Info

def scope? (info : Info) (m : Mark) : Option Scope :=
  if m = 0 then none else info.scopes[m - 1]?

def binding? (info : Info) (b : BindingId) : Option Binding := info.bindings[b]?

/-- The binding a reference resolves to; none for a global, and for what is no reference. -/
def bindingOf? (info : Info) (id : Ident) : Option BindingId :=
  info.refs[id.site]?.join.map Prod.fst

/-- The innermost scope around a reference. -/
def scopeOf? (info : Info) (id : Ident) : Option Mark :=
  info.refs[id.site]?.join.map Prod.snd

/-- The binding an identifier declares. -/
def declaration? (info : Info) (id : Ident) : Option BindingId :=
  info.decls[id.site]?.join

/-- The binding of a name in the innermost of the given scopes that has one. -/
def lookupIn (info : Info) (path : List Mark) (name : String) : Option BindingId :=
  path.findSome? fun m => (info.scope? m).bind (·.binding? name)

/-- The binding that a name has in a scope or the scopes around it. -/
def lookup (info : Info) (m : Mark) (name : String) : Option BindingId :=
  match info.scope? m with
  | some s => info.lookupIn s.path name
  | none => none

/-- Whether the scope `m` is the scope `n` or one around it. -/
def encloses (info : Info) (m n : Mark) : Bool :=
  match info.scope? m, info.scope? n with
  | some s, some t => s.encloses t
  | _, _ => false

def modifyScope (info : Info) (m : Mark) (f : Scope → Scope) : Info :=
  if m = 0 then info else { info with scopes := info.scopes.modify (m - 1) f }

def modifyBinding (info : Info) (b : BindingId) (f : Binding → Binding) : Info :=
  { info with bindings := info.bindings.modify b f }

/-- Whether a binding is still the one its scope has for its name. -/
def isBound (info : Info) (id : BindingId) (b : Binding) : Bool :=
  (info.scope? b.scope).any fun s => s.binding? b.name = some id

/-- Whether the scope of a binding can be seen by a direct call of `eval`. -/
def hasEval (info : Info) (b : Binding) : Bool := (info.scope? b.scope).any (·.hasEval)

end Info

end Deadwood
