import Deadwood.Cast
import Deadwood.Number.Dyadic
import Deadwood.Text.Units

/-!
# Primitive values

The primitive values with their conversions and operators.
-/

namespace Deadwood

inductive Value
  | undefined
  | null
  | bool (b : Bool)
  | number (x : Float)
  | string (s : String)
deriving Repr, Inhabited

namespace Value

def toText : Value → String
  | undefined => "undefined"
  | null => "null"
  | bool b => Text.ofBool b
  | number x => Number.toText x
  | string s => s

def toNumber : Value → Float
  | undefined => Number.nan
  | null => 0
  | bool b => if b then 1 else 0
  | number x => x
  | string s => Number.ofText s

def toBool : Value → Bool
  | undefined | null => false
  | bool b => b
  | number x => Number.isTruthy x
  | string s => s ≠ ""

/-- The value as a word of 32 bits. -/
def toWord (v : Value) : UInt32 := Number.toWord v.toNumber

/-- What the operator `typeof` gives. -/
def typeName : Value → String
  | undefined => "undefined"
  | null => "object"
  | bool _ => "boolean"
  | number _ => "number"
  | string _ => "string"

def isNullish : Value → Bool
  | undefined | null => true
  | _ => false

def isString : Value → Bool
  | string _ => true
  | _ => false

/-- The number of a word read with a sign. -/
def ofSigned (w : UInt32) : Value := number w.toInt32.toFloat

/-- The number of a word read without a sign. -/
def ofUnsigned (w : UInt32) : Value := number w.toFloat

/-- Equality of values of one type; values of different types differ. -/
def strictEqual : Value → Value → Bool
  | undefined, undefined | null, null => true
  | bool a, bool b => a = b
  | number x, number y => x == y
  | string s, string t => s = t
  | _, _ => false

/-- Equality where values of different types are compared as numbers. -/
def looseEqual (v w : Value) : Bool :=
  match v, w with
  | bool _, bool _ | number _, number _ | string _, string _ => strictEqual v w
  | _, _ =>
    if v.isNullish || w.isNullish then v.isNullish && w.isNullish
    else v.toNumber == w.toNumber

/-- Whether a value is less than another; nothing is known of what is no number. -/
def less? (v w : Value) : Option Bool :=
  match v, w with
  | string s, string t => some (Text.before s t)
  | _, _ =>
    if v.toNumber.isNaN || w.toNumber.isNaN then none else some (v.toNumber < w.toNumber)

def add (v w : Value) : Value :=
  if v.isString || w.isString then string (v.toText ++ w.toText) else number (v.toNumber + w.toNumber)

/-- The number of places that a shift goes. -/
def shiftCount (v : Value) : UInt32 := v.toWord &&& 0x1f

/-- The result of an operator; the logical ones are decided before both values are known. -/
def binary? (op : BinaryOp) (v w : Value) : Option Value :=
  match op with
  | .add => some (v.add w)
  | .subtract => some (number (v.toNumber - w.toNumber))
  | .multiply => some (number (v.toNumber * w.toNumber))
  | .divide => some (number (v.toNumber / w.toNumber))
  | .remainder => some (number (Number.remainder v.toNumber w.toNumber))
  | .exponent => some (number (Number.power v.toNumber w.toNumber))
  | .strictEqual => some (bool (strictEqual v w))
  | .strictNotEqual => some (bool (!strictEqual v w))
  | .equal => some (bool (looseEqual v w))
  | .notEqual => some (bool (!looseEqual v w))
  | .less => some (bool (less? v w = some true))
  | .greater => some (bool (less? w v = some true))
  | .lessOrEqual => some (bool (less? w v = some false))
  | .greaterOrEqual => some (bool (less? v w = some false))
  | .bitAnd => some (ofSigned (v.toWord &&& w.toWord))
  | .bitOr => some (ofSigned (v.toWord ||| w.toWord))
  | .bitXor => some (ofSigned (v.toWord ^^^ w.toWord))
  | .shiftLeft => some (ofSigned (v.toWord <<< w.shiftCount))
  | .shiftRight => some (number (v.toWord.toInt32 >>> w.shiftCount.toInt32).toFloat)
  | .unsignedShiftRight => some (ofUnsigned (v.toWord >>> w.shiftCount))
  | .instanceOf | .isIn | .coalesce | .logicalOr | .logicalAnd => none

/-- The result of an operator on a value. -/
def unary? (op : UnaryOp) (v : Value) : Option Value :=
  match op with
  | .not => some (bool (!v.toBool))
  | .minus => some (number (-v.toNumber))
  | .plus => some (number v.toNumber)
  | .bitNot => some (ofSigned (~~~v.toWord))
  | .typeof => some (string v.typeName)
  | .void => some undefined
  | .delete => none

/-- The shortest expression that has the value. -/
def toExpr : Value → Expr
  | undefined => .unary .void (.number 0 none)
  | null => .null
  | bool b => .bool b
  | string s => .string { value := s }
  | number x =>
    if x.isNaN then .ident { name := "NaN" }
    else
      let negative := x < 0 || (x == 0 && 1 / x < 0)
      let magnitude : Expr := if x.isInf then .ident { name := "Infinity" } else .number x.abs none
      if negative then .unary .minus magnitude else magnitude

end Value

/-! ### Evaluation -/

/-- What `typeof` says of an expression that creates an object. -/
def Expr.objectTypeName? : Expr → Option String
  | .func _ | .arrow .. | .arrowBlock .. => some "function"
  | .object _ | .array _ | .regExp .. => some "object"
  | _ => none

/-- The length of a literal text. -/
def Expr.textLength? (object : Expr) (name : Option String) : Option Value :=
  if name = some "length" then
    object.string?.map fun s => .number (Text.units s).length.toFloat
  else none

mutual

/-- The value of an expression that is constant and has no effects. -/
def Expr.value? (e : Expr) : Option Value :=
  match e with
  | .null => some .null
  | .bool b => some (.bool b)
  | .number x _ => some (.number x)
  | .string lit => some (.string lit.value)
  | .ident _ =>
    if e.isUndefined then some .undefined
    else if e.isNaN then some (.number Number.nan)
    else if e.isInfinity then some (.number Number.infinity)
    else none
  | .template none chunks es => (Expr.weaveValues? chunks es).map .string
  | .seq es => Expr.lastValue? es
  | .cond test yes no => do
    let v ← test.value?
    if v.toBool then yes.value? else no.value?
  | .member o name _ => o.textLength? (some name.name)
  | .index o key _ => o.textLength? key.string?
  | .unary op operand =>
    if op = .void then
      if operand.mayHaveEffects then none else some .undefined
    else
      match (if op = .typeof then operand.objectTypeName? else none) with
      | some s => if operand.mayHaveEffects then none else some (.string s)
      | none => do Value.unary? op (← operand.value?)
  | .binary op l r => do
    let v ← l.value?
    match op with
    | .logicalAnd => if v.toBool then r.value? else return v
    | .logicalOr => if v.toBool then return v else r.value?
    | .coalesce => if v.isNullish then r.value? else return v
    | _ => Value.binary? op v (← r.value?)
  | _ => none

/-- The chunks of a template with the values of its expressions between them. -/
def Expr.weaveValues? : List TemplateChunk → List Expr → Option String
  | chunks, [] => some (String.join (chunks.map TemplateChunk.cooked))
  | [], _ :: _ => some ""
  | c :: cs, e :: es => do
    let v ← e.value?
    let rest ← Expr.weaveValues? cs es
    return c.cooked ++ v.toText ++ rest

/-- The value of a sequence whose other expressions have no effects. -/
def Expr.lastValue? : List Expr → Option Value
  | [] => none
  | [e] => e.value?
  | e :: es => if e.mayHaveEffects then none else Expr.lastValue? es

end

/-- A literal with the value of the expression. -/
def Expr.evaluate? (e : Expr) : Option Expr := e.value?.map Value.toExpr

/-- Whether the expression is true or false, if that is known and the expression has no effects. -/
def Expr.truthy? (e : Expr) : Option Bool :=
  match e.value? with
  | some v => some v.toBool
  | none => e.truth?

end Deadwood
