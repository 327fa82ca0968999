import Deadwood.Elimination.State
import Deadwood.Removal
import Deadwood.Value
import Deadwood.ValueType

/-!
# The rules of elimination

Inlining of names, removal of declarations, folding of tests, pruning of what is never reached, and
normalization of branches.  A rule that goes into the parts of a statement is given the walk through
them.
-/

namespace Deadwood.Elimination

/-! ### Inlining -/

namespace State

/-- Brings the functions and classes that were inlined before the pass went through them up to date. -/
def renewal (s : State) : Removal where
  dropsEmpty := false
  otherFunc := fun f => f.name.bind fun id => (s.late.lookup id.site).bind Definition.func?
  otherClass := fun c => c.name.bind fun id => (s.late.lookup id.site).bind Definition.cls?

def renewExpr (s : State) (e : Expr) : Expr :=
  if s.late.isEmpty then e else ((e.remove s.renewal).run false).1

def renewStmt (s : State) (t : Stmt) : Stmt :=
  if s.late.isEmpty then t else ((t.remove s.renewal).run false).1

/-- The value that a declaration is sure to have given to its binding before every reference. -/
def valueOf? (s : State) (b : Binding) : Option Expr :=
  match b.origin with
  | .declarator site =>
    if s.listed.contains site && !(b.kind = .var && b.declScope ≠ b.scope) then
      match s.definition? site with
      | some (.variable init) => init.map s.renewExpr
      | _ => none
    else none
  | .func site =>
    match s.definition? site with
    | some (.func f) => some (s.renewExpr (.func f))
    | _ => none
  | .cls site =>
    match s.definition? site with
    | some (.cls c) => some (s.renewExpr (.cls c))
    | _ => none
  | _ => none

/-- Whether a name inside a value would be bound to something else in another scope.  Names that the value
declares itself do not count. -/
def isShadowed (s : State) (value : Expr) (scope declScope : Mark) : Bool :=
  value.references.any fun r =>
    let b := s.info.bindingOf? r
    (b.bind s.info.binding?).all (fun b => s.info.encloses b.scope declScope) &&
      s.info.lookup scope r.name ≠ b

/-- Whether the only reference to a binding may become its value. -/
def isInlinable (s : State) (i : BindingId) (b : Binding) : Bool :=
  b.references = 1 && b.isConstant && !b.isExported && !b.isForward && !s.cyclic.contains i &&
    !s.info.hasEval b && s.info.isBound i b && !b.kind.isFixed

/-- The value of the binding of a reference, where that is the only one. -/
def candidate? (s : State) (id : Ident) : Option (BindingId × Binding × Expr) := do
  guard !s.moved.contains id.site
  let i ← s.info.bindingOf? id
  let b ← s.info.binding? i
  guard (s.isInlinable i b)
  let value ← s.valueOf? b
  return (i, b, value)

/-- The value that may take the place of a reference, with the binding it is the value of. -/
def inlined? (s : State) (id : Ident) : Option (BindingId × Binding × Expr) := do
  let (i, b, value) ← s.candidate? id
  let scope ← s.info.scopeOf? id
  guard (value.isPureConstant s.facts && !(value.allocates && scope ≠ b.declScope))
  guard !(value.references.any (·.site = id.site) || s.isShadowed value scope b.declScope)
  return (i, b, value)

end State

/-- The value that takes the place of a reference, if one does. -/
def inline (id : Ident) : Pass (Option Expr) := do
  let s ← get
  ask ((s.candidate? id).map fun c => c.2.2)
  match s.inlined? id with
  | none => return none
  | some (i, b, value) =>
    modify fun s =>
      { s with
        moved := value.references.map Ident.site ++ s.moved
        info := (s.info.modifyScope b.scope fun sc => sc.remove b.name).modifyBinding i fun b =>
          { b with references := 0 }
        dead := b.origin.site?.toList ++ s.dead }
    record .inline b.name
    return some value

/-! ### Removing declarations -/

/-- Buries a declarator that nothing refers to.  Returns whether it is dead. -/
def removeDeclarator : Declarator → Pass Bool
  | .mk site (.ident id) init => do
    let s ← get
    if s.isDead site then return true
    else if s.isRemovable (s.info.declaration? id) then
      ask init
      if s.isConstantInit init then
        releaseOpt init
        bury site
        record .remove id.name
        return true
      else return false
    else return false
  | .mk site _ _ => return (← get).isDead site

/-- Buries the declarators that nothing refers to.  Returns whether all are dead. -/
def removeDeclarators : List Declarator → Pass Bool
  | [] => return true
  | d :: ds => do
    let gone ← removeDeclarator d
    let rest ← removeDeclarators ds
    return gone && rest

/-- Removes a declaration that nothing refers to.  Returns whether nothing of the statement is left. -/
def removeDeclaration (t : Stmt) : Pass Bool := do
  let s ← get
  match t with
  | .func f =>
    match f.name with
    | some id =>
      if s.isRemovable (s.info.declaration? id) then
        releaseStmt t
        record .remove id.name
        return true
      else return false
    | none => return false
  | .cls c =>
    match c.name with
    | some id =>
      if !c.hasDecorators && s.isRemovable (s.info.declaration? id) && !c.mayHaveEffects then
        releaseStmt t
        record .remove id.name
        return true
      else return false
    | none => return false
  | .decl _ list => removeDeclarators list
  | _ => return false

/-! ### Names that outlive their declaration -/

/-- The used names among those that a discarded statement declares by `var`, each binding once. -/
def State.survivors (s : State) (seen : List BindingId) : List Ident → List Ident
  | [] => []
  | id :: ids =>
    match s.info.declaration? id with
    | some i =>
      if s.isReferenced (some i) && !seen.contains i then id :: s.survivors (i :: seen) ids
      else s.survivors seen ids
    | none => s.survivors seen ids

/-- A declaration of the names that a discarded statement declares by `var` and that are still used.  A
`var` belongs to the function around it, so without it the name would become a global. -/
def State.survivingVars (s : State) (t : Stmt) : List Stmt :=
  match s.survivors [] t.varNames with
  | [] => []
  | ids => [.decl .var (ids.map fun id => .mk 0 (.ident { id with site := 0 }) none)]

/-! ### Folding tests -/

/-- What an operand is, where its meaning depends on whether it is a reference or a value. -/
inductive OperandRole
  | value
  /-- A callee or a template tag.  A member passes its object along, and `eval` called by name sees the
  scopes around it. -/
  | callee
  /-- The operand of `delete`, which removes what a reference refers to. -/
  | delete
  /-- The operand of `typeof`, which takes names that nothing declares. -/
  | typeof
deriving DecidableEq, Repr, Inhabited

/-- Whether an expression means something else as a reference than as a value. -/
def OperandRole.distinguishes (role : OperandRole) : Expr → Bool
  | .member .. | .index .. => role = .callee || role = .delete
  | .ident id =>
    match role with
    | .value => false
    | .callee => id.name = "eval"
    | .delete => true
    | .typeof => id.mark = 0
  | _ => false

/-- Replaces a conditional expression by one of its branches if its test is known. -/
def foldConditional (role : OperandRole) (test yes no : Expr) : Pass Expr := do
  let s ← get
  let test := s.renewExpr test
  let yes := s.renewExpr yes
  let no := s.renewExpr no
  match test.truthy? with
  | none => return .cond test yes no
  | some b =>
    let keep := if b then yes else no
    releaseExpr test
    releaseExpr (if b then no else yes)
    record .fold none
    return if role.distinguishes keep then .seq [.number 0 none, keep] else keep

/-- The statements of a branch, where none of them needs the block. -/
def branchStmts (t : Stmt) : List Stmt :=
  match t with
  | .block body => if body.any Stmt.isBlockScoped then [t] else body
  | t => if t.isBlockScoped then [.block [t]] else [t]

/-- Drops an empty branch of an `if`; if the other one is left, the test is negated. -/
def normalize (test : Expr) (yes : Stmt) (no : Option Stmt) : Pass Stmt :=
  match no with
  | none => return .cond test yes none
  | some other =>
    if other.isEmpty then do
      record .normalize none
      return .cond test yes none
    else if yes.isEmpty then do
      record .normalize none
      return .cond test.negate other none
    else return .cond test yes no

/-- The `var`s that survive a dropped branch. -/
def dropBranch : Option Stmt → Pass (List Stmt)
  | none => return []
  | some t => do
    releaseStmt t
    return (← get).survivingVars t

/-- Replaces an `if` by one of its branches if its test is known. -/
def foldIf (test : Expr) (yes : Stmt) (no : Option Stmt) : Pass (List Stmt) :=
  match test.truthy? with
  | none => return [← normalize test yes no]
  | some b => do
    releaseExpr test
    let vars ← dropBranch (if b then no else some yes)
    record .fold none
    return vars ++ ((if b then some yes else no).map branchStmts).getD []

/-! ### Statements -/

/-- The rules for a statement whose parts have been visited. -/
def finish (t : Stmt) : Pass (List Stmt) := do
  let t := (← get).renewStmt t
  if ← removeDeclaration t then return []
  match t with
  | .cond test yes no => foldIf test yes no
  | .empty => return []
  | t => return [t]

/-- A statement with the rules applied to it and, by the given walk, to its parts. -/
def reduce (t : Stmt) (walk : Pass Stmt) : Pass (List Stmt) := do
  if ← removeDeclaration t then return []
  finish (← walk)

/-- Statements in the place of one that stands alone. -/
def asOne : List Stmt → Stmt
  | [] => .empty
  | [t] => t
  | ts => .block ts

/-- A statement that stands alone. -/
def reduceSlot (t : Stmt) (walk : Pass Stmt) : Pass Stmt := return asOne (← reduce t walk)

/-! ### Pruning -/

/-- Discards a statement that is never reached. -/
def prune (t : Stmt) : Pass (List Stmt) := do
  releaseStmt t
  record .prune none
  return (← get).survivingVars t

def State.bindsUsed (s : State) (target : Pattern) : Bool := target.names.any s.isUsed

/-- Trims a declarator that is never reached.  One whose names are unused is dead; else the initializer
goes, except where a constant or a pattern needs it. -/
def trimDeclarator (kind : DeclKind) : Declarator → Pass Unit
  | .mk site target init => do
    let s ← get
    if s.isDead site then return ()
    else if !s.bindsUsed target then
      releaseOpt init
      bury site
      record .remove none
    else if target.isIdent && kind ≠ .const && init.isSome && !s.trimmed.contains site then
      releaseOpt init
      define site (.variable none)
      modify fun s => { s with trimmed := site :: s.trimmed }
      record .prune none

/-- Trims a declaration that is never reached.  Returns false, and does nothing, if none of its names is
used. -/
def trimDeclarators (kind : DeclKind) (list : List Declarator) : Pass Bool := do
  let s ← get
  if list.any fun d => !s.isDead d.site && s.bindsUsed d.target then
    list.forM (trimDeclarator kind)
    return true
  else return false

/-- What is left of a statement that is never reached.  Functions are available from the start of their
block and stay. -/
def reduceUnreached (t : Stmt) (walk : Pass Stmt) : Pass (List Stmt) := do
  match t with
  | .func _ => reduce t walk
  | .empty => return []
  | .decl kind list => if ← trimDeclarators kind list then return [← walk] else prune t
  | .cls c => if c.name.any (← get).isUsed then return [← walk] else prune t
  | _ => prune t

/-- Remembers the declarators of a declaration that is reached in a list of statements. -/
def list (t : Stmt) : Pass Unit :=
  match t with
  | .decl _ ds => modify fun s => { s with listed := ds.map Declarator.site ++ s.listed }
  | _ => return ()

/-- A statement of a list, `past` a statement that ends the list or not. -/
def reduceListed (past : Bool) (t : Stmt) (walk : Pass Stmt) : Pass (List Stmt) := do
  if (← get).isDeadStmt t then return [t]
  else if past then reduceUnreached t walk
  else do
    list t
    reduce t walk

end Deadwood.Elimination
