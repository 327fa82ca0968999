import Deadwood.Effect

/-!
# Types of values
-/

namespace Deadwood

inductive ValueType
  | undefined | null | bool | string | number | object
deriving DecidableEq, Repr, Inhabited

/-- Whether a sum with a value of this type may be a text. -/
def ValueType.mayBeText : ValueType → Bool
  | string | object => true
  | _ => false

/-- The type of a sum. -/
def ValueType.sum? (l r : Option ValueType) : Option ValueType :=
  if l = some .string || r = some .string then some .string
  else
    match l, r with
    | some l, some r => if l.mayBeText || r.mayBeText then none else some .number
    | _, _ => none

/-- The type that two expressions have in common. -/
def ValueType.common? (l r : Option ValueType) : Option ValueType := if l = r then l else none

def UnaryOp.valueType : UnaryOp → ValueType
  | minus | plus | bitNot => .number
  | not | delete => .bool
  | typeof => .string
  | void => .undefined

/-- The type of the result of an operator, given the types of its operands. -/
def BinaryOp.valueType? (op : BinaryOp) (l r : Option ValueType) : Option ValueType :=
  match op with
  | logicalAnd | logicalOr | coalesce => ValueType.common? l r
  | add => ValueType.sum? l r
  | bitOr | bitXor | bitAnd | shiftLeft | shiftRight | unsignedShiftRight | subtract | multiply
  | remainder | divide | exponent => some .number
  | equal | notEqual | strictEqual | strictNotEqual | less | lessOrEqual | greater | greaterOrEqual
  | isIn | instanceOf => some .bool

/-- The type of an assignment, given the type of its right side. -/
def AssignOp.valueType? (op : AssignOp) (r : Option ValueType) : Option ValueType :=
  match op with
  | assign => r
  | add => if r = some .string then r else none
  | logicalAnd | logicalOr | coalesce => none
  | _ => some .number

/-- Whether the expression has a length that is a number. -/
def Expr.hasLength : Expr → Bool
  | .array _ | .string _ => true
  | .ident id => id.name = "arguments"
  | _ => false

mutual

/-- The type of the value of an expression, as far as the syntax shows it. -/
def Expr.type? (e : Expr) : Option ValueType :=
  match e with
  | .null => some .null
  | .bool _ => some .bool
  | .number .. | .update .. => some .number
  | .string _ => some .string
  | .template tag .. => if tag.isNone then some .string else none
  | .func _ | .arrow .. | .arrowBlock .. | .cls _ | .new .. | .array _ | .object _ | .regExp .. =>
    some .object
  | .ident _ =>
    if e.isUndefined then some .undefined
    else if e.isNaN || e.isInfinity then some .number
    else none
  | .assign op _ r => op.valueType? r.type?
  | .member o name _ => if name.name = "length" && o.hasLength then some .number else none
  | .index o key _ => if key.string? = some "length" && o.hasLength then some .number else none
  | .seq es => Expr.lastType? es
  | .binary op l r => op.valueType? l.type? r.type?
  | .cond _ yes no => ValueType.common? yes.type? no.type?
  | .unary op _ => some op.valueType
  | _ => none

def Expr.lastType? : List Expr → Option ValueType
  | [] => none
  | [e] => e.type?
  | _ :: es => Expr.lastType? es

/-- Whether the value of an expression is surely a text. -/
def Expr.isText : Expr → Bool
  | .string _ => true
  | .template tag .. => tag.isNone
  | .unary op _ => op = .typeof
  | .binary op l r => op = .add && (l.isText || r.isText)
  | .assign op _ r => (op = .assign || op = .add) && r.isText
  | .seq es => Expr.lastIsText es
  | .cond _ yes no => yes.isText && no.isText
  | _ => false

def Expr.lastIsText : List Expr → Bool
  | [] => false
  | [e] => e.isText
  | _ :: es => Expr.lastIsText es

end

def Expr.isNumber : Expr → Bool
  | .number .. => true
  | _ => false

def Expr.isArray : Expr → Bool
  | .array _ => true
  | _ => false

/-- The negation of a test.  A negation loses its operator, which keeps the truth of the test and not its
value. -/
def Expr.negate : Expr → Expr
  | .unary .not e => e
  | e => .unary .not e

end Deadwood
