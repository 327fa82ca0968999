import Deadwood.Graph.Component
import Deadwood.Scope.Occurrence

/-!
# Usage of bindings

The usage graph has an edge from every function or class that is bound to a name to the bindings that
its inside refers to, weighted by the number of references.  References made outside of any such function
or class are entries.  Bindings that only refer to each other form a dead cycle.
-/

namespace Deadwood

structure Usage where
  graph : Digraph BindingId Nat
  /-- The bindings referred to from outside of any named function or class. -/
  entries : List BindingId
deriving Inhabited

namespace Usage

def empty : Usage := ⟨.empty, []⟩

def define (b : BindingId) (u : Usage) : Usage := { u with graph := u.graph.addNode b }

/-- Adds a reference to `b` made from the inside of `source`. -/
def refer (source : Option BindingId) (b : BindingId) (u : Usage) : Usage :=
  match source with
  | none => { u with entries := b :: u.entries }
  | some a => { u with graph := u.graph.addEdge a b ((u.graph.weight? a b).getD 0 + 1) }

/-- What a piece of syntax adds to the usage, given the named function or class it stands in.  A pattern
that leaves out an element has no usage. -/
abbrev Builder := Option BindingId → Usage → Option Usage

/-- The inside of a function or class bound to `b`. -/
def within (b : Option BindingId) (inner : Builder) : Builder := fun source u =>
  match b with
  | none => inner source u
  | some b => inner (some b) (u.define b)

/-- The binding of a declarator that names a function or class. -/
def named? (info : Info) : Declarator → Option BindingId
  | .mk _ (.ident id) (some init) =>
    if init.isFunctionLike || init.isClassLike then info.declaration? id else none
  | _ => none

def fold (info : Info) : Fold Builder where
  empty := fun _ u => some u
  append := fun f g source u => (f source u).bind (g source)
  ident := fun _ id source u =>
    match info.bindingOf? id with
    | none => some u
    | some b => some (u.refer source b)
  declarator := fun d => within (named? info d)
  funcDecl := fun f => within (f.name.bind info.declaration?)
  clsDecl := fun c => within (c.name.bind info.declaration?)
  hole := fun _ _ => none

end Usage

/-- The usage of the bindings of a resolved program, if no pattern leaves out an element. -/
def Program.usage? (p : Program) (info : Info) : Option Usage :=
  p.fold (Usage.fold info) none .empty

namespace Usage

/-- Whether a binding is referred to from the given bindings only. -/
def isClosed (u : Usage) (info : Info) (members : List BindingId) (b : BindingId) : Bool :=
  match info.binding? b with
  | none => false
  | some binding =>
    let sources := u.graph.incoming b
    !u.entries.contains b && !binding.isExported && sources.all members.contains &&
      sources.foldr (fun a n => (u.graph.weight? a b).getD 0 + n) 0 = binding.references

/-- Whether a component is a cycle that nothing outside of it refers to. -/
def isDeadCycle (u : Usage) (info : Info) (members : List BindingId) : Bool :=
  (match members with
    | [b] => (u.graph.weight? b b).isSome
    | _ => true) && members.all (u.isClosed info members)

/-- The bindings on dead cycles. -/
def deadCycles (u : Usage) (info : Info) : List BindingId :=
  (u.graph.components.filter (u.isDeadCycle info)).flatten

end Usage

end Deadwood
