import Deadwood.Effect
import Deadwood.Number.OfText

/-!
# Casts

What an expression gives as a boolean, a number or a text, as far as the syntax shows it.
-/

namespace Deadwood

/-- What is known of the value that an expression is converted to. -/
structure Cast (α : Type) where
  /-- The value, if it is known. -/
  value : Option α
  /-- Whether the expression is known to have no effects. -/
  isPure : Bool
deriving DecidableEq, Repr, Inhabited

namespace Cast

def pure (a : α) : Cast α := ⟨some a, true⟩

def unknown : Cast α := ⟨none, false⟩

/-- The value, if it is known and the effects are known to be none. -/
def pure? (c : Cast α) : Option α := if c.isPure then c.value else none

end Cast

/-- Whether a number is true as a boolean. -/
def Number.isTruthy (x : Float) : Bool := !(x.isNaN || x == 0)

namespace Text

def ofBool (b : Bool) : String := if b then "true" else "false"

/-- The text of a built-in object. -/
def ofObject (name : String) : String := "[object " ++ name ++ "]"

/-- The text of a built-in function. -/
def ofFunction (name : String) : String := "function " ++ name ++ "() \x7b [native code] \x7d"

/-- The text of a global, if it is built in and its text is known. -/
def ofGlobal? (name : String) : Option String :=
  if ["undefined", "Infinity", "NaN"].contains name then some name
  else if ["Math", "JSON"].contains name then some (ofObject name)
  else if name = "Date" then some (ofFunction name)
  else none

end Text

/-- Whether a global object has the given function. -/
def Builtin.isStaticMember (object name : String) : Bool :=
  match object with
  | "Math" => Builtin.mathMembers.contains name
  | "JSON" => ["parse", "stringify"].contains name
  | "Date" => ["now", "parse", "UTC"].contains name
  | _ => false

/-- Whether the value of an expression has a built-in function of the given name. -/
def Expr.hasBuiltin (name : String) : Expr → Bool
  | .ident id => id.mark = 0 && Builtin.isStaticMember id.name name
  | .string _ => name ≠ "length" && Builtin.isStringMember name
  | .number .. => Builtin.isNumberMember name
  | .bool _ => Builtin.isBooleanMember name
  | .array _ => name ≠ "length" && Builtin.isArrayMember name
  | .object _ => name ≠ "__proto__" && Builtin.isObjectMember name
  | _ => false

/-- The text of a built-in function, read as a member of an expression. -/
def Expr.builtinText? (object : Expr) (name : Option String) : Option String :=
  name.bind fun n => if object.hasBuiltin n then some (Text.ofFunction n) else none

/-- Whether an element of an array joins as the empty text. -/
def Expr.joinsEmpty : Expr → Bool
  | .hole | .null => true
  | .unary .void e => !e.mayHaveEffects
  | e => e.isUndefined

mutual

/-- An expression as a boolean. -/
def Expr.castToBool (e : Expr) : Cast Bool :=
  match e with
  | .null => .pure false
  | .bool b => .pure b
  | .number value _ => .pure (Number.isTruthy value)
  | .string lit => .pure (lit.value ≠ "")
  | .regExp .. => .pure true
  | .ident _ =>
    if e.isUndefined || e.isNaN then .pure false
    else if e.isInfinity then .pure true
    else ⟨none, !e.mayHaveEffects⟩
  | .assign .assign _ r => ⟨r.castToBool.value, false⟩
  | .unary .minus operand =>
    match operand.castToNumber.pure? with
    | some x => ⟨some (Number.isTruthy x), !operand.mayHaveEffects⟩
    | none => .unknown
  | .unary .not operand =>
    let c := operand.castToBool
    ⟨c.value.map (!·), c.isPure⟩
  | .unary .void operand => ⟨some false, !operand.mayHaveEffects⟩
  | .unary .typeof _ => ⟨some true, !e.mayHaveEffects⟩
  | .seq es => ⟨Expr.castLastToBool es, !Expr.anyEffects es⟩
  | .binary .subtract l r =>
    let a := l.castToNumber
    let b := r.castToNumber
    match a.value, b.value with
    | some x, some y => ⟨some (Number.isTruthy (x - y)), a.isPure && b.isPure⟩
    | _, _ => .unknown
  | .binary .divide l r =>
    match l.castToNumber.pure?, r.castToNumber.pure? with
    | some x, some y => .pure (Number.isTruthy (x / y))
    | _, _ => ⟨none, !e.mayHaveEffects⟩
  | .binary .logicalOr l r =>
    let a := l.castToBool
    let b := r.castToBool
    match a.value, b.value with
    | some true, _ => a
    | some false, v => ⟨v, a.isPure && b.isPure⟩
    | none, some true => ⟨some true, false⟩
    | none, _ => ⟨none, !e.mayHaveEffects⟩
  | .binary .logicalAnd l r =>
    let a := l.castToBool
    let b := r.castToBool
    match a.value, b.value with
    | some false, _ => a
    | some true, v => ⟨v, a.isPure && b.isPure⟩
    | none, some false => ⟨some false, false⟩
    | none, _ => ⟨none, !e.mayHaveEffects⟩
  | .binary .add l r =>
    if l.string?.any (· ≠ "") then ⟨some true, !r.mayHaveEffects⟩
    else if r.string?.any (· ≠ "") then ⟨some true, !l.mayHaveEffects⟩
    else ⟨none, !e.mayHaveEffects⟩
  | .func _ | .arrow .. | .arrowBlock .. | .cls _ | .new .. | .array _ | .object _ =>
    ⟨some true, !e.mayHaveEffects⟩
  | .template none chunks es =>
    match Expr.weaveText? chunks es with
    | some s => .pure (s ≠ "")
    | none => ⟨none, !Expr.anyEffects es⟩
  | _ => ⟨none, !e.mayHaveEffects⟩

/-- What the last expression of a sequence gives as a boolean. -/
def Expr.castLastToBool : List Expr → Option Bool
  | [] => none
  | [e] => e.castToBool.value
  | _ :: es => Expr.castLastToBool es

/-- An expression as a number. -/
def Expr.castToNumber (e : Expr) : Cast Float :=
  match e with
  | .null => .pure 0
  | .bool b => .pure (if b then 1 else 0)
  | .number value _ => .pure value
  | .string lit => ⟨Number.foldText? lit.value, true⟩
  | .array es =>
    match Expr.joinText? es with
    | some s => ⟨Number.foldText? s, true⟩
    | none => .unknown
  | .ident _ =>
    if e.isUndefined || e.isNaN then .pure Number.nan
    else if e.isInfinity then .pure Number.infinity
    else ⟨none, true⟩
  | .unary .minus operand =>
    match operand.castToNumber.pure? with
    | some x => .pure (-x)
    | none => .unknown
  | .unary .not operand =>
    match operand.castToBool.pure? with
    | some b => .pure (if b then 0 else 1)
    | none => .unknown
  | .unary .void operand => ⟨some Number.nan, !operand.mayHaveEffects⟩
  | .template none chunks es =>
    match Expr.weaveText? chunks es with
    | some s => ⟨Number.foldText? s, true⟩
    | none => .unknown
  | .seq es => ⟨Expr.castLastToNumber es, false⟩
  | _ => .unknown

/-- What the last expression of a sequence gives as a number. -/
def Expr.castLastToNumber : List Expr → Option Float
  | [] => none
  | [e] => e.castToNumber.value
  | _ :: es => Expr.castLastToNumber es

/-- An expression as a text, if it is known and the expression has no effects. -/
def Expr.text? : Expr → Option String
  | .null => some "null"
  | .bool b => some (Text.ofBool b)
  | .number value _ => some (Number.toText value)
  | .string lit => some lit.value
  | .template none chunks es => Expr.weaveText? chunks es
  | .ident id => if id.mark = 0 then Text.ofGlobal? id.name else none
  | .unary .void operand => if operand.mayHaveEffects then none else some "undefined"
  | .unary .not operand => operand.castToBool.pure?.map fun b => Text.ofBool (!b)
  | .array es => Expr.joinText? es
  | .member o name _ => o.builtinText? (some name.name)
  | .index o key _ => o.builtinText? key.string?
  | _ => none

/-- The chunks of a template with the texts of its expressions between them. -/
def Expr.weaveText? : List TemplateChunk → List Expr → Option String
  | chunks, [] => some (String.join (chunks.map TemplateChunk.cooked))
  | [], _ :: _ => some ""
  | c :: cs, e :: es => do
    let s ← e.text?
    let rest ← Expr.weaveText? cs es
    return c.cooked ++ s ++ rest

/-- The texts of the elements of an array with commas between them. -/
def Expr.joinText? : List Expr → Option String
  | [] => some ""
  | [e] => if e.joinsEmpty then some "" else e.text?
  | e :: es => do
    let s ← if e.joinsEmpty then some "" else e.text?
    let rest ← Expr.joinText? es
    return s ++ "," ++ rest

end

/-- An expression as a boolean, if it is known and the expression has no effects. -/
def Expr.truth? (e : Expr) : Option Bool := e.castToBool.pure?

/-- An expression as a number, if it is known and the expression has no effects. -/
def Expr.number? (e : Expr) : Option Float := e.castToNumber.pure?

end Deadwood
