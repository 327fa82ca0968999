import Deadwood.Constant
import Deadwood.Scope.Occurrence

/-!
# What an elimination knows

One pass over a program works on the facts that resolution has found.  It counts references down as parts
of the program go, and remembers which declarations are dead; dead declarations stay where they are until
the pass is over.
-/

namespace Deadwood

namespace Elimination

/-- The kinds of changes. -/
inductive Rule
  /-- The value of a name takes the place of its only reference. -/
  | inline
  /-- A declaration that nothing refers to goes. -/
  | remove
  /-- A branch takes the place of a test that is known. -/
  | fold
  /-- A statement that is never reached goes. -/
  | prune
  /-- An empty branch goes. -/
  | normalize
deriving DecidableEq, Repr, Inhabited

def Rule.text : Rule → String
  | inline => "inline"
  | remove => "remove"
  | fold => "fold"
  | prune => "prune"
  | normalize => "normalize"

structure Change where
  rule : Rule
  /-- The name that the change is about. -/
  name : Option String := none
deriving DecidableEq, Repr, Inhabited

/-- What a declaration gives to its name. -/
inductive Definition
  | variable (init : Option Expr)
  | func (f : Func)
  | cls (c : Class)
deriving Inhabited

def Definition.func? : Definition → Option Func
  | .func f => some f
  | _ => none

def Definition.cls? : Definition → Option Class
  | .cls c => some c
  | _ => none

structure State where
  info : Info
  /-- The bindings that only dead cycles refer to. -/
  cyclic : List BindingId
  /-- The declarations as they stand now, by the site of a declarator or of a function's or class's
  name. -/
  definitions : Array (Option Definition)
  /-- The sites of the declarations that go when the pass is over. -/
  dead : List Site := []
  /-- The references that are no longer counted. -/
  released : List Site := []
  /-- The references that stand inside of values that have moved. -/
  moved : List Site := []
  /-- The declarators that stand in a list of statements and are reached. -/
  listed : List Site := []
  /-- The declarators whose initializers never run and are gone. -/
  trimmed : List Site := []
  /-- The dead functions and classes that the pass has gone through all the same, as it has left them. -/
  late : List (Site × Definition) := []
  /-- Whether the search for what a constant stands for has come back to a declarator it had been to. -/
  circled : Bool := false
  /-- The changes so far, the last one first. -/
  changes : List Change := []
deriving Inhabited

abbrev Pass := StateM State

namespace State

def isDead (s : State) (site : Site) : Bool := s.dead.contains site

/-- Whether a statement declares a function or class that is dead. -/
def isDeadStmt (s : State) : Stmt → Bool
  | .func f => f.name.any fun id => s.isDead id.site
  | .cls c => c.name.any fun id => s.isDead id.site
  | _ => false

def definition? (s : State) (site : Site) : Option Definition := s.definitions[site]?.join

/-! ### Facts -/

/-- Whether a name always has one value and has it before it is read. -/
def isConstant (s : State) (id : Ident) : Bool :=
  ((s.info.bindingOf? id).bind s.info.binding?).any fun b => b.isConstant && !b.isForward

/-- Where the name that a reference is bound to comes from. -/
def origin? (s : State) (id : Ident) : Option Origin :=
  ((s.info.bindingOf? id).bind s.info.binding?).map Binding.origin

/-- The initializer of the variable that a reference is bound to. -/
def initializer? (s : State) (id : Ident) : Option (Option Expr) :=
  match s.origin? id with
  | some (.declarator site) =>
    match s.definition? site with
    | some (.variable init) => some init
    | _ => none
  | _ => none

/-- Whether a name is constant and its value is primitive.  The bound is on the number of names that
stand for each other. -/
def isPrimitive (s : State) : Nat → Ident → Bool
  | 0, _ => false
  | bound + 1, id =>
    s.isConstant id &&
      match s.initializer? id with
      | some (some e) => e.isPrimitiveConstant ⟨s.isConstant, s.isPrimitive bound⟩
      | some none => true
      | none => false

/-- What is known of the names of the program. -/
def facts (s : State) : Facts := ⟨s.isConstant, s.isPrimitive (s.info.bindings.size + 1)⟩

/-- Whether the search for what a name stands for comes back to a declarator on the given path, or to one it
has been to since.  It goes from a constant name to what its initializer consults. -/
def circles (s : State) : Nat → List Site → Ident → Bool
  | 0, _, _ => true
  | bound + 1, path, id =>
    s.isConstant id &&
      match s.origin? id, s.initializer? id with
      | some (.declarator site), some (some e) =>
        path.contains site || e.consulted.any (s.circles bound (site :: path))
      | _, _ => false

/-- Whether a missing expression, which is undefined, or a given one is constant. -/
def isConstantInit (s : State) (init : Option Expr) : Bool :=
  init.all fun e => e.isPureConstant s.facts

/-! ### References -/

/-- Whether a declaration of the binding may go. -/
def isRemovable (s : State) (id : Option BindingId) : Bool :=
  match id with
  | none => false
  | some i =>
    match s.info.binding? i with
    | none => false
    | some b =>
      !b.isExported && !s.info.hasEval b && s.info.isBound i b && !b.kind.isFixed &&
        (!b.isReferenced || s.cyclic.contains i)

/-- Whether something other than a dead cycle refers to the binding. -/
def isReferenced (s : State) (id : Option BindingId) : Bool :=
  match id with
  | none => false
  | some i => (s.info.binding? i).any Binding.isReferenced && !s.cyclic.contains i

/-- Whether the name that an identifier declares is referred to. -/
def isUsed (s : State) (id : Ident) : Bool := s.isReferenced (s.info.declaration? id)

/-- Counts a reference out, once. -/
def releaseIdent (s : State) (id : Ident) : State :=
  if s.released.contains id.site then s
  else
    match s.info.bindingOf? id with
    | none => s
    | some i =>
      if (s.info.binding? i).any Binding.isReferenced then
        { s with
          released := id.site :: s.released
          info := s.info.modifyBinding i fun b => { b with references := b.references - 1 } }
      else s

/-- The identifiers of a piece of syntax outside of dead declarations. -/
def liveIdents (s : State) : Fold (List Ident) :=
  { Fold.idents (fun _ => true) with
    declarator := fun d ids => if s.isDead d.site then [] else ids
    element := fun d ids => if s.isDead d.site then [] else ids
    funcDecl := fun f ids => if f.name.any fun id => s.isDead id.site then [] else ids
    clsDecl := fun c ids => if c.name.any fun id => s.isDead id.site then [] else ids }

def releaseAll (s : State) (ids : List Ident) : State := ids.foldl releaseIdent s

end State

/-! ### Steps of a pass -/

def record (rule : Rule) (name : Option String) : Pass Unit :=
  modify fun s => { s with changes := { rule, name } :: s.changes }

/-- Notes whether the question if an expression is constant leads around in a circle. -/
def ask (e : Option Expr) : Pass Unit :=
  modify fun s =>
    { s with
      circled := s.circled || e.any fun e => e.consulted.any (s.circles (s.info.bindings.size + 1) []) }

/-- Counts out the references that an expression holds. -/
def releaseExpr (e : Expr) : Pass Unit := modify fun s => s.releaseAll (e.fold s.liveIdents)

def releaseOpt : Option Expr → Pass Unit
  | none => return ()
  | some e => releaseExpr e

/-- Counts out the references that a statement holds. -/
def releaseStmt (t : Stmt) : Pass Unit := modify fun s => s.releaseAll (t.fold s.liveIdents)

def bury (site : Site) : Pass Unit := modify fun s => { s with dead := site :: s.dead }

/-- Keeps a declaration as it stands now. -/
def define (site : Site) (d : Definition) : Pass Unit :=
  modify fun s => { s with definitions := s.definitions.setIfInBounds site (some d) }

/-- Keeps a function or class of the given name as the pass has left it. -/
def defineNamed (name : Option Ident) (d : Definition) : Pass Unit :=
  match name with
  | none => return ()
  | some id => do
    define id.site d
    modify fun s => if s.isDead id.site then { s with late := (id.site, d) :: s.late } else s

def defineFunc (f : Func) : Pass Unit := defineNamed f.name (.func f)

def defineClass (c : Class) : Pass Unit := defineNamed c.name (.cls c)

/-- Keeps the initializer of a declarator that binds a name. -/
def defineVariable (d : Declarator) : Pass Unit :=
  match d with
  | .mk site (.ident _) init => define site (.variable init)
  | _ => return ()

end Elimination

end Deadwood
