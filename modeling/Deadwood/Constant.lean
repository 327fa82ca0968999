import Deadwood.Effect
import Deadwood.Scope.Occurrence

/-!
# Constant expressions

An expression is constant if evaluating it has no effect and always gives the same value.  An operator
that converts an object runs the object's own code, so what is converted has to be primitive.
-/

namespace Deadwood

/-- What is known of the names of an expression. -/
structure Facts where
  /-- The name always has one value, and has it before it is read. -/
  isConstant : Ident → Bool
  /-- The name is constant and its value is primitive. -/
  isPrimitive : Ident → Bool

/-- Nothing is known of any name. -/
def Facts.none : Facts := ⟨fun _ => false, fun _ => false⟩

/-- Whether a name is known to be constant, or to be primitive if that is asked for. -/
def Facts.accepts (facts : Facts) (primitive : Bool) (id : Ident) : Bool :=
  (Expr.ident id).isGlobalConstant || if primitive then facts.isPrimitive id else facts.isConstant id

/-- Whether an operator takes objects as they are. -/
def UnaryOp.keepsObjects (op : UnaryOp) : Bool := op = .typeof || op = .void || op = .not

def BinaryOp.isStrict (op : BinaryOp) : Bool := op = .strictEqual || op = .strictNotEqual

mutual

/-- Whether an expression is constant, and primitive if that is asked for. -/
def Expr.isConstantFor (facts : Facts) (primitive : Bool) : Expr → Bool
  | .hole | .null | .bool _ | .number .. | .string _ => true
  | .regExp .. | .func _ | .arrow .. | .arrowBlock .. => !primitive
  | .ident id => facts.accepts primitive id
  | .template tag _ es => tag.isNone && Expr.allConstant facts true es
  | .unary op e => op ≠ .delete && e.isConstantFor facts (!op.keepsObjects)
  | .binary op l r =>
    if op = .isIn || op = .instanceOf then false
    else
      let primitive := if op.isLogical then primitive else !op.isStrict
      l.isConstantFor facts primitive && r.isConstantFor facts primitive
  | .cond test yes no =>
    test.isConstantFor facts false && yes.isConstantFor facts primitive &&
      no.isConstantFor facts primitive
  | .seq es => Expr.isConstantSeq facts primitive es
  | .array es => !primitive && Expr.allConstant facts false es
  | .object ps => !primitive && Property.allConstant facts ps
  | .cls c => !primitive && c.isConstantFor facts
  | _ => false

def Expr.allConstant (facts : Facts) (primitive : Bool) : List Expr → Bool
  | [] => true
  | e :: es => e.isConstantFor facts primitive && Expr.allConstant facts primitive es

/-- Whether the expressions of a sequence are constant; the last one gives the value. -/
def Expr.isConstantSeq (facts : Facts) (primitive : Bool) : List Expr → Bool
  | [] => !primitive
  | [e] => e.isConstantFor facts primitive
  | e :: es => e.isConstantFor facts false && Expr.isConstantSeq facts primitive es

def Expr.isConstantOpt (facts : Facts) : Option Expr → Bool
  | none => true
  | some e => e.isConstantFor facts false

def Property.allConstant (facts : Facts) : List Property → Bool
  | [] => true
  | p :: ps => p.isConstantFor facts && Property.allConstant facts ps

def Property.isConstantFor (facts : Facts) : Property → Bool
  | .short id init => init.isNone && facts.accepts false id
  | .keyed key _ value computed =>
    (!computed || key.isConstantFor facts true) && key.keyName? ≠ some "__proto__" &&
      value.isConstantFor facts false
  | .spread _ => false

def Class.isConstantFor (facts : Facts) : Class → Bool
  | .mk _ superclass body decorators =>
    decorators.isEmpty && Expr.isConstantOpt facts superclass && ClassElement.allConstant facts body

def ClassElement.allConstant (facts : Facts) : List ClassElement → Bool
  | [] => true
  | e :: es => e.isConstantFor facts && ClassElement.allConstant facts es

def ClassElement.isConstantFor (facts : Facts) : ClassElement → Bool
  | .method key _ _ computed _ => !computed || key.isConstantFor facts true
  | .field key init computed isStatic =>
    (!computed || key.isConstantFor facts true) && (!isStatic || Expr.isConstantOpt facts init)
  | .block _ => false

end

/-- Whether the parts of an expression have a say in whether it is constant. -/
def Expr.isComposed : Expr → Bool
  | .ident _ | .template .. | .unary .. | .binary .. | .cond .. | .seq _ | .array _ | .object _ | .cls _ => true
  | _ => false

/-- Collects the names that may be asked about to tell whether an expression is constant. -/
def Fold.consulted : Fold (List Ident) :=
  { Fold.idents (· = .reference) with
    expr := fun e ids => if e.isComposed then ids else []
    funcDecl := fun _ _ => [] }

def Expr.consulted (e : Expr) : List Ident := e.fold Fold.consulted

/-- Whether an expression is constant. -/
def Expr.isPureConstant (facts : Facts) (e : Expr) : Bool := e.isConstantFor facts false

/-- Whether an expression is constant and its value is primitive. -/
def Expr.isPrimitiveConstant (facts : Facts) (e : Expr) : Bool := e.isConstantFor facts true

end Deadwood
