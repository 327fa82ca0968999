/-!
# Directed graphs

A directed graph keeps its nodes in the order they were added, under every node the ends and the beginnings
of its edges in the order the edges were added, and the weights of the edges apart from these.  Every change
has to keep the four in step.
-/

namespace Deadwood

/-- Values under keys. -/
structure Table (κ α : Type) where
  entries : List (κ × α)
deriving DecidableEq, Repr, Inhabited

namespace Table

variable {κ α : Type} [DecidableEq κ]

def empty : Table κ α := ⟨[]⟩

def get? (t : Table κ α) (k : κ) : Option α := t.entries.lookup k

def erase (t : Table κ α) (k : κ) : Table κ α := ⟨t.entries.filter (·.1 ≠ k)⟩

def set (t : Table κ α) (k : κ) (v : α) : Table κ α := ⟨(k, v) :: (t.erase k).entries⟩

/-- The list under a key; a key without one has the empty list. -/
def list (t : Table κ (List α)) (k : κ) : List α := (t.get? k).getD []

end Table

structure Digraph (ν ω : Type) where
  nodes : List ν
  /-- Under every node, where its edges lead to. -/
  targets : Table ν (List ν)
  /-- Under a node that an edge has led to, where the edges to it come from. -/
  sources : Table ν (List ν)
  weights : Table (ν × ν) ω
deriving DecidableEq, Repr, Inhabited

namespace Digraph

variable {ν ω : Type} [DecidableEq ν]

def empty : Digraph ν ω := ⟨[], .empty, .empty, .empty⟩

def hasNode (g : Digraph ν ω) (a : ν) : Bool := (g.targets.get? a).isSome

/-- The nodes that an edge from `a` leads to. -/
def neighbors (g : Digraph ν ω) (a : ν) : List ν := g.targets.list a

/-- The nodes that an edge leads from to `a`. -/
def incoming (g : Digraph ν ω) (a : ν) : List ν := g.sources.list a

/-- The weight of the edge from `a` to `b`. -/
def weight? (g : Digraph ν ω) (a b : ν) : Option ω := g.weights.get? (a, b)

def addNode (g : Digraph ν ω) (a : ν) : Digraph ν ω :=
  if g.hasNode a then g else { g with nodes := g.nodes ++ [a], targets := g.targets.set a [] }

/-- Notes at both ends of an edge where it leads and where it comes from. -/
def connect (g : Digraph ν ω) (a b : ν) : Digraph ν ω :=
  { g with
    targets := g.targets.set a (g.neighbors a ++ [b])
    sources := g.sources.set b (g.incoming b ++ [a]) }

/-- Adds an edge and its ends.  An edge that is there already keeps its place and gets the new weight. -/
def addEdge (g : Digraph ν ω) (a b : ν) (w : ω) : Digraph ν ω :=
  let g := (g.addNode a).addNode b
  let g := if (g.weight? a b).isSome then g else g.connect a b
  { g with weights := g.weights.set (a, b) w }

/-- Forgets at `b` that an edge comes from `a`, and the weight of that edge. -/
def dropSource (a : ν) (g : Digraph ν ω) (b : ν) : Digraph ν ω :=
  { g with
    sources := g.sources.set b ((g.incoming b).filter (· ≠ a))
    weights := g.weights.erase (a, b) }

/-- Forgets at `b` that an edge leads to `a`, and the weight of that edge. -/
def dropTarget (a : ν) (g : Digraph ν ω) (b : ν) : Digraph ν ω :=
  { g with
    targets := g.targets.set b ((g.neighbors b).filter (· ≠ a))
    weights := g.weights.erase (b, a) }

/-- Removes a node with every edge that touches it.  The edges from it go first, so that an edge from the node
to itself is not met again among those that lead to it. -/
def removeNode (g : Digraph ν ω) (a : ν) : Digraph ν ω :=
  if g.hasNode a then
    let g := (g.neighbors a).foldl (dropSource a) g
    let g := (g.incoming a).foldl (dropTarget a) g
    { g with
      nodes := g.nodes.filter (· ≠ a)
      targets := g.targets.erase a
      sources := g.sources.erase a }
  else g

end Digraph

end Deadwood
