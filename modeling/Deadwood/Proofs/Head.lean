import Deadwood.Proofs.Fold

/-!
# Heads of syntax

The head of a piece of syntax is what is left of it without its parts.  A walk that changes the parts of a
piece keeps the head, and most of what a fold makes of a piece depends on its head only.
-/

namespace Deadwood

def Func.head : Func → Func
  | .mk name _ _ _ async generator => .mk name [] none [] async generator

/-- An element of a class without its parts still has its kind. -/
def ClassElement.head : ClassElement → ClassElement
  | .field _ _ computed isStatic => .field .hole none computed isStatic
  | .method _ kind _ computed isStatic => .method .hole kind default computed isStatic
  | .block _ => .block []

def Class.head : Class → Class
  | .mk name _ body _ => .mk name none (body.map ClassElement.head) []

/-- A declarator without its parts still has its site. -/
def Declarator.head : Declarator → Declarator
  | .mk site .. => .mk site .hole none

def Pattern.head : Pattern → Pattern
  | .array .. => .array [] none
  | .object .. => .object [] none
  | p => p

def Expr.head : Expr → Expr
  | .template tag chunks _ => .template (tag.map fun _ => .hole) chunks []
  | .array _ => .array []
  | .object _ => .object []
  | .spread _ => .spread .hole
  | .func f => .func f.head
  | .arrow _ _ _ async => .arrow [] none .hole async
  | .arrowBlock _ _ _ async => .arrowBlock [] none [] async
  | .cls c => .cls c.head
  | .unary op _ => .unary op .hole
  | .update op _ post => .update op .hole post
  | .binary op _ _ => .binary op .hole .hole
  | .assign op _ _ => .assign op .hole .hole
  | .cond .. => .cond .hole .hole .hole
  | .seq _ => .seq []
  | .call _ _ optional => .call .hole [] optional
  | .new .. => .new .hole []
  | .member _ name optional => .member .hole name optional
  | .index _ _ optional => .index .hole .hole optional
  | .await _ => .await .hole
  | .yield arg delegate => .yield (arg.map fun _ => .hole) delegate
  | e => e

def Stmt.head : Stmt → Stmt
  | .block _ => .block []
  | .expr _ => .expr .hole
  | .cond .. => .cond .hole .empty none
  | .ret _ => .ret none
  | .throw _ => .throw .hole
  | .labelled label _ => .labelled label .empty
  | .while .. => .while .hole .empty
  | .doWhile .. => .doWhile .empty .hole
  | .for .. => .for .empty none none .empty
  | .forIn .. => .forIn .empty .hole .empty
  | .forOf _ _ _ await => .forOf .empty .hole .empty await
  | .switch .. => .switch .hole []
  | .tryCatch .. => .tryCatch [] none [] none
  | .tryFinally .. => .tryFinally [] []
  | .decl kind _ => .decl kind []
  | .func f => .func f.head
  | .cls c => .cls c.head
  | .exportDecl _ => .exportDecl .empty
  | .exportDefault _ => .exportDefault .empty
  | .exportDefaultExpr _ => .exportDefaultExpr .hole
  | t => t

/-- The declarators of a variable declaration. -/
def Stmt.declarators : Stmt → List Declarator
  | .decl _ ds => ds
  | _ => []

/-- Whether a statement is an `if`. -/
def Stmt.isCond : Stmt → Bool
  | .cond .. => true
  | _ => false

/-- A property keeps its kind, and a value that is a function stays one. -/
inductive Property.Becomes : Property → Property → Prop
  | short {id id' : Ident} {init init' : Option Expr} (h : init.isSome = init'.isSome) :
    Becomes (.short id init) (.short id' init')
  | keyed {key key' : Expr} (kind : MemberKind) {value value' : Expr} (computed : Bool)
    (h : ∀ f, value = .func f → ∃ g, value' = .func g) :
    Becomes (.keyed key kind value computed) (.keyed key' kind value' computed)
  | spread {e e' : Expr} : Becomes (.spread e) (.spread e')

/-- The property in place of a name that stands for itself, given the value it is inlined to. -/
def Property.inlined (id : Ident) : Option Expr → Property
  | some value => .keyed (.ident { name := id.name }) .value value false
  | none => .short id none

/-! ### Forms

The form of a piece of syntax is its head without the identifiers, which resolution numbers and marks. -/

def Pattern.form : Pattern → Pattern
  | .ident _ => .ident default
  | p => p.head

def Class.form : Class → Class
  | .mk _ _ body _ => .mk none none (body.map ClassElement.head) []

def Expr.form : Expr → Expr
  | .ident _ => .ident default
  | .func _ => .func default
  | .cls c => .cls c.form
  | e => e.head

def Stmt.form : Stmt → Stmt
  | .func _ => .func default
  | .cls _ => .cls default
  | .importDecl _ source => .importDecl [] source
  | .exportNames _ source => .exportNames [] source
  | t => t.head

/-! ### Running a walk -/

@[simp] theorem run_bind {σ α β : Type} (m : StateM σ α) (k : α → StateM σ β) (s : σ) :
    (m >>= k) s = k (m s).1 (m s).2 := rfl

@[simp] theorem run_pure {σ α : Type} (a : α) (s : σ) : (pure a : StateM σ α) s = (a, s) := rfl

@[simp] theorem run_get {σ : Type} (s : σ) : (get : StateM σ σ) s = (s, s) := rfl

@[simp] theorem run_set {σ : Type} (s t : σ) : (set t : StateM σ PUnit) s = (⟨⟩, t) := rfl

/-! ### Folds of lists -/

variable {α : Type}

/-- The results of the fold form a monoid. -/
structure Fold.Lawful (F : Fold α) : Prop where
  assoc : ∀ a b c, F.append (F.append a b) c = F.append a (F.append b c)
  empty_left : ∀ a, F.append F.empty a = a
  empty_right : ∀ a, F.append a F.empty = a

/-- Nothing is collected from a list if nothing is collected from its elements. -/
theorem Fold.all_eq_empty (F : Fold α) (h : F.append F.empty F.empty = F.empty) {β : Type} {f : β → α}
    (hf : ∀ b, f b = F.empty) (bs : List β) : F.all f bs = F.empty := by
  induction bs with
  | nil => rfl
  | cons b bs ih => rw [Fold.all, hf b, ih, h]

theorem Fold.Lawful.foldList_append {F : Fold α} (h : F.Lawful) (ts us : List Stmt) :
    Stmt.foldList F (ts ++ us) = F.append (Stmt.foldList F ts) (Stmt.foldList F us) := by
  induction ts with
  | nil => exact (h.empty_left _).symm
  | cons t ts ih =>
    calc
      F.append (t.fold F) (Stmt.foldList F (ts ++ us)) =
          F.append (t.fold F) (F.append (Stmt.foldList F ts) (Stmt.foldList F us)) := by rw [ih]
      _ = _ := (h.assoc ..).symm

end Deadwood
