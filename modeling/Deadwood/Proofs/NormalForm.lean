import Deadwood.Elimination.Rules
import Deadwood.Proofs.Fold

/-!
# Programs that no rule applies to

What is said here of a piece of syntax says that the rules of a pass do not apply to it: no test is known, no
branch is empty, nothing stands where it is never reached that need not stand there, and nothing is declared
that may go.  `State.normal` collects this from everything that stands in a program.
-/

namespace Deadwood

namespace Elimination.State

variable (s : State)

/-- Whether a declarator gives a constant to a name that nothing refers to. -/
def removesDeclarator : Declarator → Bool
  | .mk _ (.ident id) init => s.isRemovable (s.info.declaration? id) && s.isConstantInit init
  | _ => false

/-- Whether a statement declares something that nothing refers to and that may go. -/
def removes : Stmt → Bool
  | .func f => f.name.any fun id => s.isRemovable (s.info.declaration? id)
  | .cls c => c.name.any fun id =>
    !c.hasDecorators && s.isRemovable (s.info.declaration? id) && !c.mayHaveEffects
  | .decl _ ds => ds.any s.removesDeclarator
  | _ => false

/-- Whether a statement has to stay where it is never reached. -/
def outlives : Stmt → Bool
  | .func _ => true
  | .cls c => c.name.any s.isUsed
  | .decl _ ds => ds.any fun d => s.bindsUsed d.target
  | _ => false

/-- The statements of a list do something, are not to go and, `past` a statement that ends the list, have to
stay. -/
def NormalList : Bool → List Stmt → Prop
  | _, [] => True
  | past, t :: ts =>
    (t.isEmpty = false ∧ s.removes t = false ∧ (past = true → s.outlives t = true)) ∧
      NormalList (past || t.isCompletion) ts

def NormalElement : ClassElement → Prop
  | .method _ _ body _ _ => s.NormalList false body.body
  | .block body => s.NormalList false body
  | .field .. => True

/-- The test of a conditional is not known, and the lists of statements that an expression holds are normal. -/
def NormalExpr : Expr → Prop
  | .cond test _ _ => test.truthy? = none
  | .func f => s.NormalList false f.body
  | .arrowBlock _ _ body _ => s.NormalList false body
  | .cls c => ∀ e ∈ c.body, s.NormalElement e
  | _ => True

/-- None of the names that a loop declares first is to go. -/
def NormalHead : ForHead → Prop
  | .decl _ ds => ∀ d ∈ ds, s.removesDeclarator d = false
  | _ => True

/-- The test of an `if` is not known, it has no empty branch beside another, and the lists of statements that
a statement holds are normal, as is the head of a loop. -/
def NormalStmt : Stmt → Prop
  | .cond test yes no => test.truthy? = none ∧ ∀ other ∈ no, other.isEmpty = false ∧ yes.isEmpty = false
  | .for head .. => s.NormalHead head
  | .block body => s.NormalList false body
  | .switch _ cases => ∀ c ∈ cases, s.NormalList false c.body
  | .tryCatch body _ handler finalizer =>
    s.NormalList false body ∧ s.NormalList false handler ∧ ∀ ts ∈ finalizer, s.NormalList false ts
  | .tryFinally body finalizer => s.NormalList false body ∧ s.NormalList false finalizer
  | .func f => s.NormalList false f.body
  | .cls c => ∀ e ∈ c.body, s.NormalElement e
  | _ => True

/-- Everything that stands in a piece of syntax is normal. -/
def normal : Fold Prop where
  empty := True
  append := And
  ident _ _ := True
  expr e p := s.NormalExpr e ∧ p
  stmt t p := s.NormalStmt t ∧ p

variable {s} {past : Bool} {ts : List Stmt}

theorem NormalList.mem (h : s.NormalList past ts) {t : Stmt} (ht : t ∈ ts) :
    t.isEmpty = false ∧ s.removes t = false := by
  induction ts generalizing past with
  | nil => cases ht
  | cons u ts ih =>
    rcases List.mem_cons.1 ht with rfl | ht
    · exact ⟨h.1.1, h.1.2.1⟩
    · exact ih h.2 ht

theorem NormalList.outlives (h : s.NormalList true ts) {t : Stmt} (ht : t ∈ ts) : s.outlives t = true := by
  induction ts with
  | nil => cases ht
  | cons u ts ih =>
    rcases List.mem_cons.1 ht with rfl | ht
    · exact h.1.2.2 rfl
    · exact ih h.2 ht

/-- Only what has to stay comes after a statement that ends the list. -/
theorem NormalList.pairwise (h : s.NormalList past ts) :
    ts.Pairwise fun t u => t.isCompletion = true → s.outlives u = true := by
  induction ts generalizing past with
  | nil => exact .nil
  | cons t ts ih =>
    refine .cons (fun u hu ht => ?_) (ih h.2)
    have hpast := h.2
    rw [ht, Bool.or_true] at hpast
    exact hpast.outlives hu

end Elimination.State

/-! ### Everything that stands in a program -/

/-- The expressions and statements of a piece of syntax. -/
structure Pieces where
  exprs : List Expr
  stmts : List Stmt

def Fold.pieces : Fold Pieces where
  empty := ⟨[], []⟩
  append a b := ⟨a.exprs ++ b.exprs, a.stmts ++ b.stmts⟩
  ident _ _ := ⟨[], []⟩
  expr e a := { a with exprs := e :: a.exprs }
  stmt t a := { a with stmts := t :: a.stmts }

def ClassElement.lists : ClassElement → List (List Stmt)
  | .method _ _ body _ _ => [body.body]
  | .block body => [body]
  | .field .. => []

/-- The lists of statements that an expression itself holds. -/
def Expr.lists : Expr → List (List Stmt)
  | .func f => [f.body]
  | .arrowBlock _ _ body _ => [body]
  | .cls c => c.body.flatMap ClassElement.lists
  | _ => []

/-- The lists of statements that a statement itself holds. -/
def Stmt.lists : Stmt → List (List Stmt)
  | .block body => [body]
  | .switch _ cases => cases.map Case.body
  | .tryCatch body _ handler finalizer => body :: handler :: finalizer.toList
  | .tryFinally body finalizer => [body, finalizer]
  | .func f => [f.body]
  | .cls c => c.body.flatMap ClassElement.lists
  | _ => []

namespace Program

/-- All expressions of a program. -/
def exprs (p : Program) : List Expr := (p.fold Fold.pieces).exprs

/-- All statements of a program. -/
def stmts (p : Program) : List Stmt := (p.fold Fold.pieces).stmts

/-- All lists of statements of a program. -/
def lists (p : Program) : List (List Stmt) :=
  p.body :: (p.exprs.flatMap Expr.lists ++ p.stmts.flatMap Stmt.lists)

/-- No rule applies to the program, given what is known of it. -/
structure IsNormal (p : Program) (s : Elimination.State) : Prop where
  /-- No test of a conditional expression is known. -/
  conditional : ∀ test yes no, .cond test yes no ∈ p.exprs → test.truthy? = none
  /-- No test of an `if` is known. -/
  test : ∀ test yes no, .cond test yes no ∈ p.stmts → test.truthy? = none
  /-- Neither branch of an `if` with two branches is empty. -/
  branches : ∀ test yes no, .cond test yes (some no) ∈ p.stmts → no.isEmpty = false ∧ yes.isEmpty = false
  /-- No statement of a list does nothing. -/
  busy : ∀ ts ∈ p.lists, ∀ t ∈ ts, t.isEmpty = false
  /-- Only functions, used classes and variables of which one is used come after a statement that ends a list. -/
  reached : ∀ ts ∈ p.lists, ts.Pairwise fun t u => t.isCompletion = true → s.outlives u = true
  /-- Nothing is declared in a list that nothing refers to and that may go. -/
  needed : ∀ ts ∈ p.lists, ∀ t ∈ ts, s.removes t = false
  /-- Nor is it by the head of a loop. -/
  heads : ∀ kind ds test update body, .for (.decl kind ds) test update body ∈ p.stmts →
    ∀ d ∈ ds, s.removesDeclarator d = false

end Program

namespace Elimination.State

variable {s : State}

theorem NormalElement.lists {e : ClassElement} (h : s.NormalElement e) : ∀ ts ∈ e.lists, s.NormalList false ts := by
  cases e with
  | field => exact nofun
  | method => exact List.forall_mem_singleton.2 h
  | block => exact List.forall_mem_singleton.2 h

theorem normal_elements {c : Class} (h : ∀ e ∈ c.body, s.NormalElement e) :
    ∀ ts ∈ c.body.flatMap ClassElement.lists, s.NormalList false ts := by
  intro ts hts
  obtain ⟨e, he, hts⟩ := List.mem_flatMap.1 hts
  exact (h e he).lists ts hts

theorem NormalExpr.lists {e : Expr} (h : s.NormalExpr e) : ∀ ts ∈ e.lists, s.NormalList false ts := by
  cases e with
  | func => exact List.forall_mem_singleton.2 h
  | arrowBlock => exact List.forall_mem_singleton.2 h
  | cls => exact normal_elements h
  | _ => exact nofun

theorem NormalStmt.lists {t : Stmt} (h : s.NormalStmt t) : ∀ ts ∈ t.lists, s.NormalList false ts := by
  cases t with
  | block => exact List.forall_mem_singleton.2 h
  | switch => exact List.forall_mem_map.2 h
  | tryCatch body param handler finalizer =>
    refine List.forall_mem_cons.2 ⟨h.1, List.forall_mem_cons.2 ⟨h.2.1, fun ts hts => ?_⟩⟩
    exact h.2.2 ts (Option.mem_toList.1 hts)
  | tryFinally => exact List.forall_mem_cons.2 ⟨h.1, List.forall_mem_singleton.2 h.2⟩
  | func => exact List.forall_mem_singleton.2 h
  | cls => exact normal_elements h
  | _ => exact nofun

/-- What holds of everything in a piece of syntax holds of its parts. -/
theorem normal_relates : s.normal.Relates Fold.pieces
    fun P a => P → (∀ e ∈ a.exprs, s.NormalExpr e) ∧ ∀ t ∈ a.stmts, s.NormalStmt t where
  empty _ := ⟨nofun, nofun⟩
  append h h' hP :=
    ⟨List.forall_mem_append.2 ⟨(h hP.1).1, (h' hP.2).1⟩, List.forall_mem_append.2 ⟨(h hP.1).2, (h' hP.2).2⟩⟩
  ident _ _ _ := ⟨nofun, nofun⟩
  expr _ _ _ _ h hP := ⟨List.forall_mem_cons.2 ⟨hP.1, (h hP.2).1⟩, (h hP.2).2⟩
  stmt _ _ _ _ h hP := ⟨(h hP.2).1, List.forall_mem_cons.2 ⟨hP.1, (h hP.2).2⟩⟩
  declarator _ _ _ _ h := h
  element _ _ _ _ h := h
  funcDecl _ h := h
  clsDecl _ h := h
  property _ _ _ h := h
  hole _ := ⟨nofun, nofun⟩

theorem isNormal {p : Program} (h : p.fold s.normal) (hbody : s.NormalList false p.body) : p.IsNormal s := by
  obtain ⟨he, ht⟩ := Program.fold_related s.normal_relates p h
  have hlists : ∀ ts ∈ p.lists, s.NormalList false ts := by
    intro ts hts
    rcases List.mem_cons.1 hts with rfl | hts
    · exact hbody
    · rcases List.mem_append.1 hts with hts | hts
      · obtain ⟨e, hmem, hts⟩ := List.mem_flatMap.1 hts
        exact (he e hmem).lists ts hts
      · obtain ⟨t, hmem, hts⟩ := List.mem_flatMap.1 hts
        exact (ht t hmem).lists ts hts
  exact {
    conditional := fun _ _ _ hmem => he _ hmem
    test := fun _ _ _ hmem => (ht _ hmem).1
    branches := fun _ _ no hmem => (ht _ hmem).2 no rfl
    busy := fun ts hts t hmem => ((hlists ts hts).mem hmem).1
    reached := fun ts hts => (hlists ts hts).pairwise
    needed := fun ts hts t hmem => ((hlists ts hts).mem hmem).2
    heads := fun _ _ _ _ _ hmem => ht _ hmem }

end Elimination.State

end Deadwood
