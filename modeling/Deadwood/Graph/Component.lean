import Deadwood.Graph.Basic

/-!
# Strongly connected components

The components of a graph by one depth-first search.  A node joins the stack when it is discovered, and
a component leaves the stack when the search comes back to the first of its nodes.  So a component is
listed before every component that reaches it.
-/

namespace Deadwood.Digraph

variable {ν ω : Type} [DecidableEq ν]

structure Search (ν : Type) where
  /-- The nodes discovered so far with their numbers, the last one first. -/
  index : List (ν × Nat)
  /-- The discovered nodes whose component is not complete, the last one first. -/
  stack : List ν
  components : List (List ν)
deriving Repr, Inhabited

namespace Search

def empty : Search ν := ⟨[], [], []⟩

def index? (s : Search ν) (a : ν) : Option Nat := s.index.lookup a

def discover (s : Search ν) (a : ν) : Search ν :=
  { s with index := (a, s.index.length) :: s.index, stack := a :: s.stack }

/-- Completes the component of `a`: everything on the stack down to it. -/
def complete (s : Search ν) (a : ν) : Search ν :=
  { s with
    stack := (s.stack.dropWhile (· ≠ a)).tail
    components := s.components ++ [s.stack.takeWhile (· ≠ a) ++ [a]] }

end Search

/-- Searches from a node that is not discovered yet.  The number returned is the least number of a node
on the stack that the search has come across.  The bound is on the depth of the search. -/
def visit (g : Digraph ν ω) : Nat → ν → Search ν → Nat × Search ν
  | 0, _, s => (s.index.length, s)
  | bound + 1, a, s =>
    let number := s.index.length
    let follow := fun (acc : Nat × Search ν) (b : ν) =>
      match acc.2.index? b with
      | none =>
        let (low, s) := g.visit bound b acc.2
        (min acc.1 low, s)
      | some n => (if acc.2.stack.contains b then min acc.1 n else acc.1, acc.2)
    let (low, s) := (g.neighbors a).foldl follow (number, s.discover a)
    (low, if low = number then s.complete a else s)

/-- The strongly connected components of a graph. -/
def components (g : Digraph ν ω) : List (List ν) :=
  (g.nodes.foldl (fun s a =>
    if (s.index? a).isSome then s else (g.visit g.nodes.length a s).2) Search.empty).components

end Deadwood.Digraph
