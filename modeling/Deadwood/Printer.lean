import Deadwood.Syntax.Access
import Deadwood.Number.Shortest
import Deadwood.Text.Quoted

/-!
# Printing programs

A program is printed with four spaces a level, one statement a line, and parentheses only where the
grouping would change without them.
-/

namespace Deadwood

open Text (quote isPlainName)

/-! ### Levels

The level of an expression says how tightly its parts hold together.  A place that asks for a level
puts every looser expression in parentheses. -/

namespace Level

def sequence : Nat := 0
def assignment : Nat := 1
def conditional : Nat := 2
/-- A binary operator holds at its own binding power above this level. -/
def binary : Nat := 2
def unary : Nat := 15
def update : Nat := 16
def call : Nat := 17
def primary : Nat := 18

end Level

def BinaryOp.level (op : BinaryOp) : Nat := Level.binary + op.precedence

namespace Expr

def level : Expr → Nat
  | seq _ => Level.sequence
  | assign .. | arrow .. | arrowBlock .. | yield .. | spread _ => Level.assignment
  | cond .. => Level.conditional
  | binary op .. => op.level
  | unary .. | await _ => Level.unary
  | update _ _ post => if post then Level.update else Level.unary
  | number value _ => if value < 0 then Level.unary else Level.primary
  | call .. | member .. | index .. | new .. => Level.call
  | template tag .. => if tag.isSome then Level.call else Level.primary
  | _ => Level.primary

/-- Whether the text of an expression opens with a brace, `function` or `class`, which a statement
would claim for itself. -/
def opensBrace : Expr → Bool
  | object _ | func _ | cls _ => true
  | binary _ l _ | assign _ l _ => l.opensBrace
  | cond test .. => test.opensBrace
  | call callee .. => callee.opensBrace
  | member o .. | index o .. => o.opensBrace
  | seq (e :: _) => e.opensBrace
  | update _ e post => post && e.opensBrace
  | template (some tag) .. => tag.opensBrace
  | _ => false

/-- Whether a call stands on the path of members from an expression to its root. -/
def containsCall : Expr → Bool
  | call .. => true
  | member o .. | index o .. => o.containsCall
  | template (some tag) .. => tag.containsCall
  | _ => false

mutual

/-- Whether an `in` operator stands in an expression outside of brackets. -/
def containsIn : Expr → Bool
  | binary op l r => op = .isIn || l.containsIn || r.containsIn
  | assign _ l r => l.containsIn || r.containsIn
  | cond test yes no => test.containsIn || yes.containsIn || no.containsIn
  | seq es => anyContainsIn es
  | unary _ e | await e => e.containsIn
  | yield (some e) _ => e.containsIn
  | arrow _ _ body _ => body.containsIn
  | member o .. | index o .. => o.containsIn
  | call callee .. => callee.containsIn
  | _ => false

def anyContainsIn : List Expr → Bool
  | [] => false
  | e :: es => e.containsIn || anyContainsIn es

end

/-- Whether a dot right after the expression would be read as part of a number. -/
def isBareInteger : Expr → Bool
  | number value raw =>
    !(raw.getD (Number.toText value)).toList.any fun c => ".eExXoObB".toList.contains c
  | _ => false

def isHole : Expr → Bool
  | hole => true
  | _ => false

end Expr

/-- The name a property key stands for, if it is not computed. -/
def Expr.keyName? : Expr → Option String
  | .ident id => some id.name
  | .string lit => some lit.value
  | .number value _ => some (Number.toText value)
  | _ => none

/-- Whether a sign right before an operand would fuse with the operand's own sign. -/
def UnaryOp.fuses (op : UnaryOp) : Expr → Bool
  | .unary inner _ => (op = .plus && inner = .plus) || (op = .minus && inner = .minus)
  | .update inner _ post =>
    !post && ((op = .plus && inner = .increment) || (op = .minus && inner = .decrement))
  | .number value _ => op = .minus && value < 0
  | _ => false

/-- Whether an operator may not stand beside another one without parentheses. -/
def BinaryOp.clashes (op : BinaryOp) : Expr → Bool
  | .binary inner .. =>
    (op = .coalesce && (inner = .logicalAnd || inner = .logicalOr)) ||
      (inner = .coalesce && (op = .logicalAnd || op = .logicalOr))
  | _ => false

/-- The level that an operator asks of an operand that would otherwise need the given level. -/
def BinaryOp.operandLevel (op : BinaryOp) (operand : Expr) (level : Nat) : Nat :=
  if op.clashes operand then Level.primary else level

/-- The levels that an operator asks of its operands.  Exponentiation groups to the right and takes no
unary operator on its left. -/
def BinaryOp.levels (op : BinaryOp) : Nat × Nat :=
  if op = .exponent then (Level.update, op.level) else (op.level, op.level + 1)

/-! ### Pieces of text -/

namespace Print

/-- A new line at a depth. -/
def newline (depth : Nat) : String := String.ofList ('\n' :: List.replicate (4 * depth) ' ')

def parens (b : Bool) (s : String) : String := if b then "(" ++ s ++ ")" else s

def commas (parts : List String) : String := ", ".intercalate parts

/-- Parts in braces, each on its own line one level deeper than the braces. -/
def braces (depth : Nat) (parts : List String) : String :=
  if parts.isEmpty then "\x7b\x7d"
  else "\x7b" ++ String.join (parts.map (newline (depth + 1) ++ ·)) ++ newline depth ++ "\x7d"

/-- The body of a branch or loop, always in braces unless it is empty. -/
def body (depth : Nat) (s : Stmt) (text : Nat → String) : String :=
  match s with
  | .block _ | .empty => text depth
  | _ => braces depth [text (depth + 1)]

/-- Parts followed by a rest element. -/
def withRest (parts : List String) (rest : Option String) : String :=
  commas (parts ++ (rest.map ("..." ++ ·)).toList)

/-- Chunks of a template with the substitutions between them. -/
def weave : List TemplateChunk → List String → String
  | [], _ => ""
  | c :: cs, [] => c.raw ++ weave cs []
  | c :: cs, e :: es => c.raw ++ "$\x7b" ++ e ++ "\x7d" ++ weave cs es

def literal (s : StringLit) : String := s.raw.getD (quote s.value)

def exportName (name : String) : String := if isPlainName name then name else quote name

/-- The words of a function before its parameters. -/
def functionWords (f : Func) : String :=
  (if f.async then "async " else "") ++ "function" ++ (if f.generator then "*" else "") ++
    (match f.name with | some id => " " ++ id.name | none => "")

/-- The words of a method before its key. -/
def methodWords (kind : MemberKind) (f : Func) : String :=
  (match kind with | .get => "get " | .set => "set " | _ => "") ++
    (if f.async then "async " else "") ++ (if f.generator then "*" else "")

def key (computed : Bool) (text : String) : String := if computed then "[" ++ text ++ "]" else text

/-- The level that a property key is printed at. -/
def keyLevel (computed : Bool) : Nat := if computed then Level.assignment else Level.primary

def jump (word : String) (label : Option Ident) : String :=
  word ++ (match label with | some id => " " ++ id.name | none => "") ++ ";"

/-- The specifiers of an import: default and namespace first, in their order, then the others. -/
def importClause (specs : List ImportSpec) : String :=
  let named := specs.filter fun s => s.imported ≠ "default" && s.imported ≠ "*"
  let step := fun (acc : String × Bool) (s : ImportSpec) =>
    if s.imported = "default" then (acc.1 ++ s.binder.name, false)
    else if s.imported = "*" then
      (acc.1 ++ (if acc.2 then "" else ", ") ++ "* as " ++ s.binder.name, false)
    else acc
  let (head, first) := specs.foldl step ("", true)
  let spec := fun (s : ImportSpec) =>
    if s.imported ≠ s.binder.name then exportName s.imported ++ " as " ++ s.binder.name
    else s.binder.name
  if named.isEmpty then head
  else head ++ (if first then "" else ", ") ++ "\x7b " ++ commas (named.map spec) ++ " \x7d"

def importDecl (specs : List ImportSpec) (source : StringLit) : String :=
  if specs.isEmpty then "import " ++ literal source ++ ";"
  else "import " ++ importClause specs ++ " from " ++ literal source ++ ";"

def exportNames (specs : List ExportSpec) (source : Option StringLit) : String :=
  let spec := fun (s : ExportSpec) =>
    if s.exported ≠ s.source.name then s.source.name ++ " as " ++ exportName s.exported
    else s.source.name
  "export " ++
    (if specs.isEmpty then "\x7b\x7d" else "\x7b " ++ commas (specs.map spec) ++ " \x7d") ++
    (match source with | some s => " from " ++ literal s | none => "") ++ ";"

def exportAll (name : Option String) (source : StringLit) : String :=
  "export *" ++ (match name with | some n => " as " ++ exportName n | none => "") ++ " from " ++
    literal source ++ ";"

end Print

/-- Whether an object pattern can show a property by the name it binds alone. -/
def Print.isShorthand (key : Expr) (computed : Bool) (value : Declarator) : Bool :=
  match value.target with
  | .ident id => !computed && key.keyName? = some id.name
  | _ => false

open Print

/-! ### Programs -/

mutual

/-- Prints an expression where the given level is asked for. -/
def Expr.print (depth level : Nat) (e : Expr) : String :=
  parens (e.level < level) <|
    match e with
    | .hole => ""
    | .ident id => id.name
    | .this => "this"
    | .super => "super"
    | .null => "null"
    | .bool b => if b then "true" else "false"
    | .number value raw => raw.getD (Number.toText value)
    | .string lit => literal lit
    | .regExp pattern flags => "/" ++ pattern ++ "/" ++ flags
    | .template tag chunks es =>
      (match tag with | some t => t.print depth Level.call | none => "") ++
        "\x60" ++ weave chunks (Expr.printList depth Level.sequence es) ++ "\x60"
    | .array es =>
      "[" ++ commas (Expr.printList depth Level.assignment es) ++
        (if es.getLast?.any Expr.isHole then "," else "") ++ "]"
    | .object ps =>
      let parts := Property.printList depth ps
      braces depth (parts.dropLast.map (· ++ ",") ++ parts.getLast?.toList)
    | .spread e => "..." ++ e.print depth Level.assignment
    | .func f => functionWords f ++ f.print depth
    | .arrow params rest body async =>
      (if async then "async " else "") ++ "(" ++
        withRest (Declarator.printList depth false params)
          (match rest with | some p => some (p.print depth) | none => none) ++ ") => " ++
        (if body.opensBrace then "(" ++ body.print depth Level.sequence ++ ")"
          else body.print depth Level.assignment)
    | .arrowBlock params rest body async =>
      (if async then "async " else "") ++ "(" ++
        withRest (Declarator.printList depth false params)
          (match rest with | some p => some (p.print depth) | none => none) ++ ") => " ++
        braces depth (Stmt.printList (depth + 1) body)
    | .cls c => c.print depth
    | .unary op e =>
      op.text ++ (if 1 < op.text.length || op.fuses e then " " else "") ++ e.print depth Level.unary
    | .update op e post =>
      if post then e.print depth Level.call ++ op.text else op.text ++ e.print depth Level.unary
    | .binary op l r =>
      l.print depth (op.operandLevel l op.levels.1) ++ " " ++ op.text ++ " " ++
        r.print depth (op.operandLevel r op.levels.2)
    | .assign op l r =>
      l.print depth Level.call ++ " " ++ op.text ++ " " ++ r.print depth Level.assignment
    | .cond test yes no =>
      test.print depth (Level.conditional + 1) ++ " ? " ++ yes.print depth Level.assignment ++ " : " ++
        no.print depth Level.assignment
    | .seq es => commas (Expr.printList depth Level.assignment es)
    | .call callee args optional =>
      callee.print depth Level.call ++ (if optional then "?." else "") ++ "(" ++
        commas (Expr.printList depth Level.assignment args) ++ ")"
    | .new callee args =>
      "new " ++
        (if callee.containsCall then "(" ++ callee.print depth Level.sequence ++ ")"
          else callee.print depth Level.call) ++
        "(" ++ commas (Expr.printList depth Level.assignment args) ++ ")"
    | .member object name optional =>
      (if object.isBareInteger then "(" ++ object.print depth Level.sequence ++ ")"
        else object.print depth Level.call) ++ (if optional then "?." else ".") ++ name.name
    | .index object key optional =>
      (if object.isBareInteger then "(" ++ object.print depth Level.sequence ++ ")"
        else object.print depth Level.call) ++ (if optional then "?." else "") ++ "[" ++
        key.print depth Level.sequence ++ "]"
    | .await e => "await " ++ e.print depth Level.unary
    | .yield arg delegate =>
      "yield" ++ (if delegate then "*" else "") ++
        (match arg with | some e => " " ++ e.print depth Level.assignment | none => "")

def Expr.printList (depth level : Nat) : List Expr → List String
  | [] => []
  | e :: es => e.print depth level :: Expr.printList depth level es

/-- Prints a property one level deeper than the braces around it. -/
def Property.print (depth : Nat) : Property → String
  | .short id init =>
    id.name ++ (match init with | some e => " = " ++ e.print (depth + 1) Level.assignment | none => "")
  | .keyed key kind (.func f) computed =>
    let key := Print.key computed (key.print (depth + 1) (keyLevel computed))
    if kind = .value then key ++ ": " ++ functionWords f ++ f.print (depth + 1)
    else methodWords kind f ++ key ++ f.print (depth + 1)
  | .keyed key _ value computed =>
    Print.key computed (key.print (depth + 1) (keyLevel computed)) ++ ": " ++
      value.print (depth + 1) Level.assignment
  | .spread e => "..." ++ e.print (depth + 1) Level.assignment

def Property.printList (depth : Nat) : List Property → List String
  | [] => []
  | p :: ps => p.print depth :: Property.printList depth ps

/-- Prints the parameters and the body of a function. -/
def Func.print (depth : Nat) : Func → String
  | .mk _ params rest body _ _ =>
    "(" ++ withRest (Declarator.printList depth false params)
      (match rest with | some p => some (p.print depth) | none => none) ++ ") " ++
      braces depth (Stmt.printList (depth + 1) body)

def Class.print (depth : Nat) : Class → String
  | .mk name superclass body decorators =>
    String.join ((Expr.printList depth Level.call decorators).map fun s => "@" ++ s ++ " ") ++
      "class" ++ (match name with | some id => " " ++ id.name | none => "") ++
      (match superclass with | some e => " extends " ++ e.print depth Level.call | none => "") ++ " " ++
      braces depth (ClassElement.printList (depth + 1) body)

def ClassElement.print (depth : Nat) : ClassElement → String
  | .field key init computed isStatic =>
    (if isStatic then "static " else "") ++
      Print.key computed (key.print depth (keyLevel computed)) ++
      (match init with | some e => " = " ++ e.print depth Level.assignment | none => "") ++ ";"
  | .method key kind f computed isStatic =>
    (if isStatic then "static " else "") ++ methodWords kind f ++
      Print.key computed (key.print depth (keyLevel computed)) ++ f.print depth
  | .block body => "static " ++ braces depth (Stmt.printList (depth + 1) body)

def ClassElement.printList (depth : Nat) : List ClassElement → List String
  | [] => []
  | e :: es => e.print depth :: ClassElement.printList depth es

def Pattern.print (depth : Nat) : Pattern → String
  | .hole => ""
  | .ident id => id.name
  | .array elems rest =>
    "[" ++ withRest (Declarator.printList depth false elems)
        (match rest with | some p => some (p.print depth) | none => none) ++
      (match elems.getLast?, rest with | some (.mk _ .hole _), none => "," | _, _ => "") ++ "]"
  | .object props rest =>
    if props.isEmpty && rest.isNone then "\x7b\x7d"
    else "\x7b " ++ withRest (PatternProp.printList depth props)
        (match rest with | some p => some (p.print depth) | none => none) ++ " \x7d"

/-- Prints a declarator; in the head of a loop an `in` operator needs parentheses. -/
def Declarator.print (depth : Nat) (inHead : Bool) : Declarator → String
  | .mk _ target init =>
    target.print depth ++
      (match init with
      | none => ""
      | some e =>
        " = " ++ if inHead && e.containsIn then "(" ++ e.print depth Level.sequence ++ ")"
          else e.print depth Level.assignment)

def Declarator.printList (depth : Nat) (inHead : Bool) : List Declarator → List String
  | [] => []
  | d :: ds => d.print depth inHead :: Declarator.printList depth inHead ds

def PatternProp.print (depth : Nat) : PatternProp → String
  | .mk key computed _ value =>
    if isShorthand key computed value then value.print depth false
    else
      Print.key computed (key.print depth (keyLevel computed)) ++ ": " ++ value.print depth false

def PatternProp.printList (depth : Nat) : List PatternProp → List String
  | [] => []
  | p :: ps => p.print depth :: PatternProp.printList depth ps

def Stmt.print (depth : Nat) : Stmt → String
  | .empty => ";"
  | .debugger => "debugger;"
  | .block b => braces depth (Stmt.printList (depth + 1) b)
  | .expr e => parens e.opensBrace (e.print depth Level.sequence) ++ ";"
  | .cond test yes no =>
    "if (" ++ test.print depth Level.sequence ++ ") " ++ body depth yes (fun d => yes.print d) ++
      (match no with
      | none => ""
      | some no => " else " ++
        match no with
        | .cond .. => no.print depth
        | _ => body depth no (fun d => no.print d))
  | .ret arg =>
    "return" ++ (match arg with | some e => " " ++ e.print depth Level.sequence | none => "") ++ ";"
  | .throw arg => "throw " ++ arg.print depth Level.sequence ++ ";"
  | .brk label => jump "break" label
  | .cont label => jump "continue" label
  | .labelled label s => label.name ++ ": " ++ s.print depth
  | .while test s =>
    "while (" ++ test.print depth Level.sequence ++ ") " ++ body depth s (fun d => s.print d)
  | .doWhile s test =>
    "do " ++ body depth s (fun d => s.print d) ++ " while (" ++ test.print depth Level.sequence ++ ");"
  | .for head test update s =>
    "for (" ++ head.print depth false ++ ";" ++
      (match test with | some e => " " ++ e.print depth Level.sequence | none => "") ++ ";" ++
      (match update with | some e => " " ++ e.print depth Level.sequence | none => "") ++ ") " ++
      body depth s (fun d => s.print d)
  | .forIn head source s =>
    "for (" ++ head.print depth true ++ " in " ++ source.print depth Level.sequence ++ ") " ++
      body depth s (fun d => s.print d)
  | .forOf head source s await =>
    "for " ++ (if await then "await " else "") ++ "(" ++ head.print depth true ++ " of " ++
      source.print depth Level.assignment ++ ") " ++ body depth s (fun d => s.print d)
  | .switch subject cases =>
    "switch (" ++ subject.print depth Level.sequence ++ ") " ++
      braces depth (Case.printList (depth + 1) cases)
  | .tryCatch b param handler finalizer =>
    "try " ++ braces depth (Stmt.printList (depth + 1) b) ++ " catch " ++
      (match param with | some p => "(" ++ p.print depth ++ ") " | none => "") ++
      braces depth (Stmt.printList (depth + 1) handler) ++
      (match finalizer with
      | some f => " finally " ++ braces depth (Stmt.printList (depth + 1) f)
      | none => "")
  | .tryFinally b finalizer =>
    "try " ++ braces depth (Stmt.printList (depth + 1) b) ++ " finally " ++
      braces depth (Stmt.printList (depth + 1) finalizer)
  | .decl kind list => kind.text ++ " " ++ commas (Declarator.printList depth false list) ++ ";"
  | .func f => functionWords f ++ f.print depth
  | .cls c => c.print depth
  | .importDecl specs source => Print.importDecl specs source
  | .exportDecl s => "export " ++ s.print depth
  | .exportNames specs source => Print.exportNames specs source
  | .exportAll name source => Print.exportAll name source
  | .exportDefault s => "export default " ++ s.print depth
  | .exportDefaultExpr e =>
    "export default " ++
      (if e.opensBrace then "(" ++ e.print depth Level.sequence ++ ")"
        else e.print depth Level.assignment) ++ ";"

def Stmt.printList (depth : Nat) : List Stmt → List String
  | [] => []
  | s :: ss => s.print depth :: Stmt.printList depth ss

/-- Prints the head of a loop; `each` tells a loop over the parts of a value. -/
def ForHead.print (depth : Nat) (each : Bool) : ForHead → String
  | .empty => ""
  | .decl kind list => kind.text ++ " " ++ commas (Declarator.printList depth (!each) list)
  | .expr e =>
    if each then e.print depth Level.call
    else parens e.containsIn (e.print depth Level.sequence)

def Case.print (depth : Nat) : Case → String
  | .mk test b =>
    (match test with | some e => "case " ++ e.print depth Level.sequence ++ ":" | none => "default:") ++
      String.join ((Stmt.printList (depth + 1) b).map (newline (depth + 1) ++ ·))

def Case.printList (depth : Nat) : List Case → List String
  | [] => []
  | c :: cs => c.print depth :: Case.printList depth cs

end

/-- The text of a program. -/
def Program.print (p : Program) : String :=
  String.join ((Stmt.printList 0 p.body).map (· ++ "\n"))

end Deadwood
