import Deadwood.Syntax.Basic

/-!
# Parts and predicates of syntax
-/

namespace Deadwood

def Func.name : Func → Option Ident
  | .mk name .. => name

def Func.params : Func → List Declarator
  | .mk _ params .. => params

def Func.rest : Func → Option Pattern
  | .mk _ _ rest .. => rest

def Func.body : Func → List Stmt
  | .mk _ _ _ body .. => body

def Func.async : Func → Bool
  | .mk _ _ _ _ async _ => async

def Func.generator : Func → Bool
  | .mk _ _ _ _ _ generator => generator

def Class.name : Class → Option Ident
  | .mk name .. => name

def Class.superclass : Class → Option Expr
  | .mk _ superclass .. => superclass

def Class.body : Class → List ClassElement
  | .mk _ _ body _ => body

def Class.decorators : Class → List Expr
  | .mk _ _ _ decorators => decorators

def Declarator.site : Declarator → Site
  | .mk site .. => site

def Declarator.target : Declarator → Pattern
  | .mk _ target _ => target

def Declarator.init : Declarator → Option Expr
  | .mk _ _ init => init

def PatternProp.key : PatternProp → Expr
  | .mk key .. => key

def PatternProp.computed : PatternProp → Bool
  | .mk _ computed .. => computed

def PatternProp.shorthand : PatternProp → Bool
  | .mk _ _ shorthand _ => shorthand

def PatternProp.value : PatternProp → Declarator
  | .mk _ _ _ value => value

def Case.test : Case → Option Expr
  | .mk test _ => test

def Case.body : Case → List Stmt
  | .mk _ body => body

/-! ### Expressions -/

namespace Expr

/-- Whether the expression reads as a pattern on the left of `=`. -/
def isPattern : Expr → Bool
  | object _ | array _ => true
  | _ => false

/-- Whether the expression can be assigned to; `pattern` tells whether patterns count. -/
def isAssignable (pattern : Bool) : Expr → Bool
  | ident id => !id.name.startsWith "#"
  | member _ _ optional => !optional
  | index _ _ optional => !optional
  | object _ | array _ => pattern
  | _ => false

def isFunctionLike : Expr → Bool
  | func _ | arrow .. | arrowBlock .. => true
  | _ => false

def isClassLike : Expr → Bool
  | cls _ => true
  | _ => false

end Expr

/-! ### Patterns -/

mutual

/-- The identifiers a pattern binds, in the order they are written. -/
def Pattern.names : Pattern → List Ident
  | .hole => []
  | .ident id => [id]
  | .array elems rest => Declarator.listNames elems ++ Pattern.optNames rest
  | .object props rest => PatternProp.listNames props ++ Pattern.optNames rest

def Pattern.optNames : Option Pattern → List Ident
  | none => []
  | some p => p.names

def Declarator.names : Declarator → List Ident
  | .mk _ target _ => target.names

def Declarator.listNames : List Declarator → List Ident
  | [] => []
  | d :: ds => d.names ++ Declarator.listNames ds

def PatternProp.names : PatternProp → List Ident
  | .mk _ _ _ value => value.names

def PatternProp.listNames : List PatternProp → List Ident
  | [] => []
  | p :: ps => p.names ++ PatternProp.listNames ps

end

def Pattern.ident? : Pattern → Option Ident
  | .ident id => some id
  | _ => none

/-! ### Statements -/

namespace Stmt

/-- Whether the statement is an export that carries a declaration, names or a default. -/
def isExport : Stmt → Bool
  | exportDecl _ | exportNames .. | exportAll .. | exportDefault _ | exportDefaultExpr _ => true
  | _ => false

/-- Whether the statement declares a name of its block. -/
def isBlockScoped : Stmt → Bool
  | decl kind _ => kind ≠ .var
  | cls _ | func _ => true
  | _ => false

/-- Whether control never goes past the statement. -/
def isCompletion : Stmt → Bool
  | ret _ | throw _ | brk _ | cont _ => true
  | _ => false

/-- The statements of a block, or the statement alone. -/
def unwrap : Stmt → List Stmt
  | block body => body
  | s => [s]

/-- Whether the statement does nothing: it is empty, or a block without statements. -/
def isEmpty : Stmt → Bool
  | empty => true
  | block body => body.isEmpty
  | _ => false

end Stmt

def Class.hasDecorators (c : Class) : Bool := !c.decorators.isEmpty

end Deadwood
