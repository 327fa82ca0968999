import Deadwood.Scope.Occurrence

/-!
# Where declarations stand

A statement stands in a list of statements or in an export, or alone: as a branch of an `if`, or as the body of a
loop or of a label.  A function may be declared by a statement that stands alone, though not in strict code.
-/

namespace Deadwood

/-- Whether the parts of a statement stand alone, given whether the statement itself does so. -/
def Stmt.isolates (alone : Bool) : Stmt → Bool
  | .decl .. | .func _ | .cls _ => alone
  | .block _ | .switch .. | .tryCatch .. | .tryFinally .. | .exportDecl _ | .exportDefault _ => false
  | _ => true

/-- Tells whether no statement that stands alone declares a function.  In an expression, a function and a class,
statements stand in lists. -/
def Fold.funcsListed : Fold (Bool → Bool) where
  empty _ := true
  append a b alone := a alone && b alone
  ident _ _ _ := true
  expr _ a _ := a false
  stmt t a alone := a (t.isolates alone)
  funcDecl _ a alone := !alone && a false
  clsDecl _ a _ := a false

/-- Whether functions are declared in lists of statements and in exports only. -/
def Program.funcsListed (p : Program) : Bool := p.fold Fold.funcsListed false

example : (Program.mk [.func default, .exportDecl (.func default), .block [.func default]]).funcsListed = true := by
  decide

example : (Program.mk [.labelled default (.func default)]).funcsListed = false := by decide

end Deadwood
