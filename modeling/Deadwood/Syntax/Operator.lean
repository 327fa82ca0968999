import Deadwood.TokenKind

/-!
# Operators

The operators of expressions, each with the token kind that spells it.
-/

namespace Deadwood

inductive UnaryOp
  | not | bitNot | plus | minus | typeof | void | delete
deriving DecidableEq, Repr, Inhabited

def UnaryOp.kind : UnaryOp → TokenKind
  | not => .not
  | bitNot => .bitNot
  | plus => .plus
  | minus => .minus
  | typeof => .typeofKw
  | void => .voidKw
  | delete => .deleteKw

def UnaryOp.text (op : UnaryOp) : String := op.kind.text

def UnaryOp.ofKind? : TokenKind → Option UnaryOp
  | .not => some not
  | .bitNot => some bitNot
  | .plus => some plus
  | .minus => some minus
  | .typeofKw => some typeof
  | .voidKw => some void
  | .deleteKw => some delete
  | _ => none

inductive UpdateOp
  | increment | decrement
deriving DecidableEq, Repr, Inhabited

def UpdateOp.kind : UpdateOp → TokenKind
  | increment => .increment
  | decrement => .decrement

def UpdateOp.text (op : UpdateOp) : String := op.kind.text

def UpdateOp.ofKind? : TokenKind → Option UpdateOp
  | .increment => some increment
  | .decrement => some decrement
  | _ => none

inductive BinaryOp
  | coalesce | logicalOr | logicalAnd
  | bitOr | bitXor | bitAnd
  | equal | notEqual | strictEqual | strictNotEqual
  | less | greater | lessOrEqual | greaterOrEqual | instanceOf | isIn
  | shiftLeft | shiftRight | unsignedShiftRight
  | add | subtract | multiply | divide | remainder | exponent
deriving DecidableEq, Repr, Inhabited

namespace BinaryOp

def kind : BinaryOp → TokenKind
  | coalesce => .coalesce
  | logicalOr => .logicalOr
  | logicalAnd => .logicalAnd
  | bitOr => .bitOr
  | bitXor => .bitXor
  | bitAnd => .bitAnd
  | equal => .equal
  | notEqual => .notEqual
  | strictEqual => .strictEqual
  | strictNotEqual => .strictNotEqual
  | less => .less
  | greater => .greater
  | lessOrEqual => .lessOrEqual
  | greaterOrEqual => .greaterOrEqual
  | instanceOf => .instanceOfKw
  | isIn => .inKw
  | shiftLeft => .shiftLeft
  | shiftRight => .shiftRight
  | unsignedShiftRight => .unsignedShiftRight
  | add => .plus
  | subtract => .minus
  | multiply => .multiply
  | divide => .divide
  | remainder => .remainder
  | exponent => .exponent

def text (op : BinaryOp) : String := op.kind.text

def all : List BinaryOp :=
  [coalesce, logicalOr, logicalAnd, bitOr, bitXor, bitAnd, equal, notEqual, strictEqual,
   strictNotEqual, less, greater, lessOrEqual, greaterOrEqual, instanceOf, isIn, shiftLeft,
   shiftRight, unsignedShiftRight, add, subtract, multiply, divide, remainder, exponent]

def ofKind? (k : TokenKind) : Option BinaryOp := all.find? fun op => op.kind = k

/-- The binding power of an operator, with `in` allowed. -/
def precedence (op : BinaryOp) : Nat := op.kind.precedence true

def isLogical (op : BinaryOp) : Bool := op.kind.isLogical

end BinaryOp

inductive AssignOp
  | assign
  | add | subtract | multiply | exponent | divide | remainder
  | bitAnd | bitOr | bitXor | shiftLeft | shiftRight | unsignedShiftRight
  | logicalAnd | logicalOr | coalesce
deriving DecidableEq, Repr, Inhabited

namespace AssignOp

def kind : AssignOp → TokenKind
  | assign => .assign
  | add => .addAssign
  | subtract => .subtractAssign
  | multiply => .multiplyAssign
  | exponent => .exponentAssign
  | divide => .divideAssign
  | remainder => .remainderAssign
  | bitAnd => .bitAndAssign
  | bitOr => .bitOrAssign
  | bitXor => .bitXorAssign
  | shiftLeft => .shiftLeftAssign
  | shiftRight => .shiftRightAssign
  | unsignedShiftRight => .unsignedShiftRightAssign
  | logicalAnd => .logicalAndAssign
  | logicalOr => .logicalOrAssign
  | coalesce => .coalesceAssign

def text (op : AssignOp) : String := op.kind.text

def all : List AssignOp :=
  [assign, add, subtract, multiply, exponent, divide, remainder, bitAnd, bitOr, bitXor, shiftLeft,
   shiftRight, unsignedShiftRight, logicalAnd, logicalOr, coalesce]

def ofKind? (k : TokenKind) : Option AssignOp := all.find? fun op => op.kind = k

end AssignOp

end Deadwood
