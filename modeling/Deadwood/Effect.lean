import Deadwood.Builtin
import Deadwood.Printer

/-!
# Effects

`Expr.mayHaveEffects` and `Stmt.mayHaveEffects` tell whether running a piece of syntax may be observed.
They err on the side of effects.
-/

namespace Deadwood

/-- Whether the expression reads the global of the given name. -/
def Expr.isGlobal (name : String) : Expr → Bool
  | .ident id => id.name = name && id.mark = 0
  | _ => false

def Expr.isNaN : Expr → Bool := isGlobal "NaN"

def Expr.isUndefined : Expr → Bool := isGlobal "undefined"

def Expr.isInfinity : Expr → Bool := isGlobal "Infinity"

def Expr.isVoid : Expr → Bool
  | .unary .void _ => true
  | _ => false

/-- Whether the expression reads one of the globals that stand for a primitive value. -/
def Expr.isGlobalConstant (e : Expr) : Bool := e.isUndefined || e.isNaN || e.isInfinity

def Expr.string? : Expr → Option String
  | .string lit => some lit.value
  | _ => none

/-- Whether reading a name may fail: it is global and not built in. -/
def Ident.mayThrow (id : Ident) : Bool := id.mark = 0 && !Builtin.globals.contains id.name

/-- Whether calling a method of an object has no effect. -/
def Expr.isPureMethod (object : Expr) (name : Option String) : Bool :=
  if object.isGlobal "Math" then
    name.any fun n => n ≠ "random" && Builtin.mathMembers.contains n
  else object.string?.isSome && name.any Builtin.pureStringMethods.contains

/-- Whether calling the expression has no effect beyond evaluating the arguments. -/
def Expr.isPureCallee : Expr → Bool
  | .member o name _ => o.isPureMethod (some name.name)
  | .index o key _ => o.isPureMethod key.string?
  | .func f => f.params.isEmpty && f.rest.isNone && f.body.isEmpty
  | .arrowBlock params rest body _ => params.isEmpty && rest.isNone && body.isEmpty
  | e => e.isGlobal "Date"

/-- Whether a property lets reading another property run code. -/
def Property.isDynamic : Property → Bool
  | .short id _ => id.name = "__proto__"
  | .keyed key kind _ computed =>
    computed || key.keyName? = some "__proto__" || kind = .get || kind = .set
  | .spread _ => true

/-- Whether a class element is a static accessor. -/
def ClassElement.isStaticAccessor : ClassElement → Bool
  | .method _ kind _ _ isStatic => isStatic && (kind = .get || kind = .set)
  | _ => false

/-- Whether reading a property of the expression's value may run code.  Only functions, and classes and
objects without accessors, are known not to. -/
def Expr.mayTrap : Expr → Bool
  | .func _ | .arrow .. | .arrowBlock .. => false
  | .cls c => c.body.any ClassElement.isStaticAccessor
  | .object ps => ps.any Property.isDynamic
  | _ => true

def Pattern.isIdent : Pattern → Bool
  | .ident _ => true
  | _ => false

mutual

/-- Whether evaluating an expression may have effects. -/
def Expr.mayHaveEffects : Expr → Bool
  | .hole | .this | .null | .bool _ | .number .. | .string _ | .regExp .. => false
  | .func _ | .arrow .. | .arrowBlock .. => false
  | .ident id => id.mayThrow
  | .cls c => c.mayHaveEffects
  | .array es => Expr.anyEffects es
  | .object ps => Property.anyEffects ps
  | .template tag _ es => tag.isSome || Expr.anyEffects es
  | .unary op e =>
    match op, e with
    | .delete, _ => true
    | .typeof, .ident _ => false
    | _, _ => e.mayHaveEffects
  | .binary op l r => op = .isIn || op = .instanceOf || l.mayHaveEffects || r.mayHaveEffects
  | .member o _ _ => o.mayTrap || o.mayHaveEffects
  | .index o key _ => o.mayTrap || o.mayHaveEffects || key.mayHaveEffects
  | .call callee args _ => !callee.isPureCallee || Expr.anyEffects args
  | .seq es => Expr.anyEffects es
  | .cond test yes no => test.mayHaveEffects || yes.mayHaveEffects || no.mayHaveEffects
  | .super | .spread _ | .update .. | .assign .. | .new .. | .await _ | .yield .. => true

def Expr.anyEffects : List Expr → Bool
  | [] => false
  | e :: es => e.mayHaveEffects || Expr.anyEffects es

def Expr.optEffects : Option Expr → Bool
  | none => false
  | some e => e.mayHaveEffects

def Property.anyEffects : List Property → Bool
  | [] => false
  | p :: ps => p.mayHaveEffects || Property.anyEffects ps

def Property.mayHaveEffects : Property → Bool
  | .short id _ => id.mayThrow
  | .keyed key _ value computed => (computed && key.mayHaveEffects) || value.mayHaveEffects
  | .spread _ => true

/-- Whether defining a class may have effects. -/
def Class.mayHaveEffects : Class → Bool
  | .mk _ superclass body decorators =>
    !decorators.isEmpty || Expr.optEffects superclass || ClassElement.anyEffects body

def ClassElement.anyEffects : List ClassElement → Bool
  | [] => false
  | e :: es => e.mayHaveEffects || ClassElement.anyEffects es

def ClassElement.mayHaveEffects : ClassElement → Bool
  | .method key _ _ computed _ => computed && key.mayHaveEffects
  | .field key init computed isStatic =>
    (computed && key.mayHaveEffects) || (isStatic && Expr.optEffects init)
  | .block body => Stmt.anyEffects body

/-- Whether running a statement may have effects. -/
def Stmt.mayHaveEffects : Stmt → Bool
  | .empty | .func _ => false
  | .block body => Stmt.anyEffects body
  | .labelled _ body => body.mayHaveEffects
  | .cond test yes no => test.mayHaveEffects || yes.mayHaveEffects || Stmt.optEffects no
  | .switch subject cases => subject.mayHaveEffects || Case.anyEffects cases
  | .tryCatch body _ handler finalizer =>
    Stmt.anyEffects body || Stmt.anyEffects handler || Stmt.optAnyEffects finalizer
  | .tryFinally body finalizer => Stmt.anyEffects body || Stmt.anyEffects finalizer
  | .cls c => c.mayHaveEffects
  | .decl kind list => kind = .var || Declarator.anyEffects list
  | .expr e => e.mayHaveEffects
  | _ => true

def Stmt.anyEffects : List Stmt → Bool
  | [] => false
  | s :: ss => s.mayHaveEffects || Stmt.anyEffects ss

def Stmt.optEffects : Option Stmt → Bool
  | none => false
  | some s => s.mayHaveEffects

def Stmt.optAnyEffects : Option (List Stmt) → Bool
  | none => false
  | some ss => Stmt.anyEffects ss

def Case.anyEffects : List Case → Bool
  | [] => false
  | .mk test body :: cs => Expr.optEffects test || Stmt.anyEffects body || Case.anyEffects cs

def Declarator.anyEffects : List Declarator → Bool
  | [] => false
  | .mk _ target init :: ds =>
    !target.isIdent || Expr.optEffects init || Declarator.anyEffects ds

end

end Deadwood
