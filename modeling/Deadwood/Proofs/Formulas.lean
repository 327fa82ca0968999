import Deadwood.Lexer
import Deadwood.Printer

/-!
# Formulas

A formula is an expression made of variables, literals, array literals, operators, calls and members.  It
is printed as a list of lexemes, which say what its tokens tell a parser.  The lexemes of a formula are
defined here the way its text is, with parentheses in the same places.
-/

namespace Deadwood

open Text (isNameStart isNamePart quote)

/-! ### Formulas -/

/-- Whether a text can stand as a name. -/
def Text.isName (s : String) : Bool :=
  match s.toList with
  | [] => false
  | c :: cs => isNameStart c && cs.all isNamePart

theorem Text.isName_iff {s : String} :
    isName s ↔ ∃ c cs, s.toList = c :: cs ∧ isNameStart c ∧ ∀ d ∈ cs, isNamePart d := by
  unfold isName
  split
  · next h => simp [h]
  · next c cs h => simp only [h, List.cons.injEq, Bool.and_eq_true, List.all_eq_true]; grind

/-- Whether a text can name a variable in any place: it is a name that is not reserved, nor `let`. -/
def Text.isVariable (s : String) : Bool := isName s && (TokenKind.ofWord? s).isNone && s ≠ "let"

/-- Whether a text consists of decimal digits. -/
def Text.isDigits (s : String) : Bool := !s.toList.isEmpty && s.toList.all Char.isDigit

/-- The number that a text is read as. -/
def Token.numberOf (digits : String) : Float := (scan (.ofString digits)).1.number

/-- An expression made of variables, literals, array literals with holes, operators, calls and members
that are not optional.  What is assigned to is a variable or a member. -/
inductive Expr.Formula : Expr → Prop
  | ident (id : Ident) (h : Text.isVariable id.name) : Formula (.ident id)
  | this : Formula .this
  | null : Formula .null
  | bool (b : Bool) : Formula (.bool b)
  | string (value : String) : Formula (.string ⟨value, none⟩)
  | number (digits : String) (h : Text.isDigits digits) :
    Formula (.number (Token.numberOf digits) (some digits))
  | array (es : List Expr) (h : ∀ e ∈ es, e.isHole = false → Formula e) : Formula (.array es)
  | unary (op : UnaryOp) {e : Expr} (h : Formula e) : Formula (.unary op e)
  | update (op : UpdateOp) {e : Expr} (post : Bool) (h : Formula e) (ht : e.isAssignable false) :
    Formula (.update op e post)
  | binary (op : BinaryOp) {l r : Expr} (hl : Formula l) (hr : Formula r) : Formula (.binary op l r)
  | assign (op : AssignOp) {l r : Expr} (hl : Formula l) (ht : l.isAssignable false) (hr : Formula r) :
    Formula (.assign op l r)
  | cond {test yes no : Expr} (ht : Formula test) (hy : Formula yes) (hn : Formula no) :
    Formula (.cond test yes no)
  | seq (es : List Expr) (hes : 2 ≤ es.length) (h : ∀ e ∈ es, Formula e) : Formula (.seq es)
  | call {callee : Expr} (args : List Expr) (hc : Formula callee) (h : ∀ e ∈ args, Formula e) :
    Formula (.call callee args false)
  | new {callee : Expr} (args : List Expr) (hc : Formula callee) (h : ∀ e ∈ args, Formula e) :
    Formula (.new callee args)
  | member {o : Expr} (name : Ident) (ho : Formula o) (h : Text.isName name.name) :
    Formula (.member o name false)
  | index {o key : Expr} (ho : Formula o) (hk : Formula key) : Formula (.index o key false)

mutual

/-- A formula the way its text is read: a string literal has its spelling, and names have neither mark nor
site. -/
def Expr.asRead : Expr → Expr
  | .ident id => .ident { name := id.name }
  | .string lit => .string ⟨lit.value, some (quote lit.value)⟩
  | .array es => .array (Expr.asReadList es)
  | .unary op e => .unary op e.asRead
  | .update op e post => .update op e.asRead post
  | .binary op l r => .binary op l.asRead r.asRead
  | .assign op l r => .assign op l.asRead r.asRead
  | .cond test yes no => .cond test.asRead yes.asRead no.asRead
  | .seq es => .seq (Expr.asReadList es)
  | .call callee args optional => .call callee.asRead (Expr.asReadList args) optional
  | .new callee args => .new callee.asRead (Expr.asReadList args)
  | .member o name optional => .member o.asRead { name := name.name } optional
  | .index o key optional => .index o.asRead key.asRead optional
  | e => e

def Expr.asReadList : List Expr → List Expr
  | [] => []
  | e :: es => e.asRead :: Expr.asReadList es

end

/-! ### Lexemes -/

/-- What a token tells a parser. -/
inductive Lexeme
  /-- A name or a reserved word. -/
  | word (text : String)
  | number (digits : String)
  | string (value : String)
  /-- A punctuator, or a word that stands for itself. -/
  | sign (kind : TokenKind)

namespace Lexeme

def kind : Lexeme → TokenKind
  | word w => (TokenKind.ofWord? w).getD .name
  | number _ => .number
  | string _ => .string
  | sign k => k

def text : Lexeme → String
  | word w => w
  | number digits => digits
  | string value => quote value
  | sign k => k.text

/-- Puts lexemes in parentheses. -/
def enclose (b : Bool) (ls : List Lexeme) : List Lexeme :=
  if b then sign .leftParen :: (ls ++ [sign .rightParen]) else ls

/-- Parts with commas between them. -/
def commas : List (List Lexeme) → List Lexeme
  | [] => []
  | x :: xs => x ++ xs.flatMap (sign .comma :: ·)

end Lexeme

open Lexeme (enclose)

mutual

/-- The lexemes of a formula outside of parentheses. -/
def Expr.lexemes : Expr → List Lexeme
  | .ident id => [.word id.name]
  | .this => [.sign .thisKw]
  | .null => [.word "null"]
  | .bool b => [.word (if b then "true" else "false")]
  | .string lit => [.string lit.value]
  | .number _ raw => [.number (raw.getD "")]
  | .array es =>
    .sign .leftBracket :: (Lexeme.commas (Expr.lexemesList es) ++
      (if es.getLast?.any Expr.isHole then [.sign .comma] else []) ++ [.sign .rightBracket])
  | .unary op e => .sign op.kind :: enclose (e.level < Level.unary) e.lexemes
  | .update op e post =>
    if post then enclose (e.level < Level.call) e.lexemes ++ [.sign op.kind]
    else .sign op.kind :: enclose (e.level < Level.unary) e.lexemes
  | .binary op l r =>
    enclose (l.level < op.operandLevel l op.levels.1) l.lexemes ++
      .sign op.kind :: enclose (r.level < op.operandLevel r op.levels.2) r.lexemes
  | .assign op l r =>
    enclose (l.level < Level.call) l.lexemes ++
      .sign op.kind :: enclose (r.level < Level.assignment) r.lexemes
  | .cond test yes no =>
    enclose (test.level < Level.conditional + 1) test.lexemes ++
      .sign .question :: (enclose (yes.level < Level.assignment) yes.lexemes ++
        .sign .colon :: enclose (no.level < Level.assignment) no.lexemes)
  | .seq es => Lexeme.commas (Expr.lexemesList es)
  | .call callee args _ =>
    enclose (callee.level < Level.call) callee.lexemes ++
      .sign .leftParen :: (Lexeme.commas (Expr.lexemesList args) ++ [.sign .rightParen])
  | .new callee args =>
    .sign .newKw :: (enclose (callee.containsCall || callee.level < Level.call) callee.lexemes ++
      .sign .leftParen :: (Lexeme.commas (Expr.lexemesList args) ++ [.sign .rightParen]))
  | .member o name _ =>
    enclose (o.isBareInteger || o.level < Level.call) o.lexemes ++ [.sign .dot, .word name.name]
  | .index o key _ =>
    enclose (o.isBareInteger || o.level < Level.call) o.lexemes ++
      .sign .leftBracket :: (enclose (key.level < Level.sequence) key.lexemes ++ [.sign .rightBracket])
  | _ => []

/-- The lexemes of expressions each of which stands between commas. -/
def Expr.lexemesList : List Expr → List (List Lexeme)
  | [] => []
  | e :: es => enclose (e.level < Level.assignment) e.lexemes :: Expr.lexemesList es

end

attribute [simp] Expr.lexemes Expr.lexemesList

/-- The lexemes of a formula where the given level is asked for. -/
def Expr.lexemesAt (level : Nat) (e : Expr) : List Lexeme := enclose (e.level < level) e.lexemes

end Deadwood
