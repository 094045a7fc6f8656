import Isnad.Chain.Link

/-! # Cycles of a chain

A depth-first search with an explicit stack. A node is fresh until it is put on the stack, and done
once it leaves it; an edge to a node on the stack closes a cycle. -/

namespace Isnad.ChainGraph

inductive Mark where
  | fresh | onStack | done
deriving DecidableEq, Repr

/-- A node on the stack and its children that were not looked at. -/
structure Frame where
  node : Nat
  unread : List Nat
deriving DecidableEq, Repr

/-- The state of the search: the innermost frame comes first, and cycles come in the order in which
they were found. -/
structure Search where
  marks : List Mark
  stack : List Frame
  cycles : List (List Nat)
deriving DecidableEq, Repr

namespace Search

def start (g : ChainGraph) : Search := ⟨List.replicate g.size .fresh, [], []⟩

def mark (s : Search) (i : Nat) : Mark := s.marks.getD i .done

/-- The nodes on the stack, the outermost first. -/
def trail (s : Search) : List Nat := (s.stack.map Frame.node).reverse

/-- The nodes from `child` to the end of the trail, and `child` again. -/
def closing (trail : List Nat) (child : Nat) : List Nat :=
  trail.drop ((trail.idxOf? child).getD 0) ++ [child]

/-- Puts a node on the stack. -/
def push (g : ChainGraph) (s : Search) (i : Nat) : Search :=
  { s with marks := s.marks.set i .onStack, stack := ⟨i, g.childrenOf i⟩ :: s.stack }

/-- Looks at one child of the innermost node, or takes that node off the stack. -/
def step (g : ChainGraph) (s : Search) : Option Search :=
  match s.stack with
  | [] => none
  | ⟨node, []⟩ :: rest => some { s with marks := s.marks.set node .done, stack := rest }
  | ⟨node, child :: unread⟩ :: rest =>
    let s := { s with stack := ⟨node, unread⟩ :: rest }
    match s.mark child with
    | .fresh => some (s.push g child)
    | .onStack => some { s with cycles := s.cycles ++ [closing s.trail child] }
    | .done => some s

/-- Steps until the stack is empty, at most as many as the first argument says. -/
def run (g : ChainGraph) : Nat → Search → Search
  | 0, s => s
  | n + 1, s =>
    match s.step g with
    | some t => run g n t
    | none => s

/-- Every step uses up an edge or a node. -/
def budget (g : ChainGraph) : Nat := g.edgeCount + g.size

/-- Searches from a node, unless it was met before. -/
def visit (g : ChainGraph) (s : Search) (i : Nat) : Search :=
  if s.mark i = .fresh then (s.push g i).run g (budget g) else s

end Search

/-- The cycles, each as the nodes on it from parent to child, with the first again at the end. -/
def cycles (g : ChainGraph) : List (List Nat) :=
  ((List.range g.size).foldl (Search.visit g) (.start g)).cycles

end Isnad.ChainGraph
