import Isnad.Chain.Cycle

/-! # Linkage of a chain

A chain is sound when it is one tree: names are not repeated, every parent is in the chain, one
node has no parent, and all nodes descend from it. -/

namespace Isnad

/-- What the analysis of a chain found. -/
structure Linkage where
  root : Option String
  reachable : Nat
  issues : List Issue
deriving DecidableEq, Repr

namespace Linkage

def isSound (l : Linkage) : Bool := l.issues.isEmpty

def has (l : Linkage) (code : IssueCode) : Bool := l.issues.any (·.code = code)

open Json in
def toJson (l : Linkage) : Json :=
  object [("root", ofOption .str l.root), ("reachable", ofNat l.reachable),
    ("issues", ofList Issue.toJson l.issues)]

end Linkage

namespace ChainLink

/-- The links whose names are not among `seen` or earlier in the list, and the others. -/
def splitFirsts (seen : List String) : List ChainLink → List ChainLink × List ChainLink
  | [] => ([], [])
  | l :: ls =>
    if seen.contains l.id then
      let rest := splitFirsts seen ls
      (rest.1, l :: rest.2)
    else
      let rest := splitFirsts (l.id :: seen) ls
      (l :: rest.1, rest.2)

/-- The first link of each name. -/
def firsts (links : List ChainLink) : List ChainLink := (splitFirsts [] links).1

/-- The links whose name occurs earlier. -/
def repeats (links : List ChainLink) : List ChainLink := (splitFirsts [] links).2

def duplicateIssue (l : ChainLink) : Issue :=
  ⟨.sanadDuplicateNode, "node_id " ++ l.id ++ " appears more than once", l.path ++ ".node_id"⟩

/-- The issue of a link whose parent is not among the names. -/
def orphanReference? (names : List String) (l : ChainLink) : Option Issue :=
  match l.parent with
  | some p =>
    if names.contains p then none
    else some ⟨.sanadOrphanReference,
      "node " ++ l.id ++ " references parent " ++ p ++ " which is not in the chain", l.path⟩
  | none => none

/-- A chain has exactly one node without a parent, unless it is empty. -/
def rootIssues (nodes roots : List ChainLink) : List Issue :=
  match roots with
  | [] =>
    if nodes.isEmpty then []
    else [⟨.sanadNoRoot, "every node references a parent; the chain has no root",
      "transmission_chain"⟩]
  | [_] => []
  | _ => [⟨.sanadMultipleRoots,
      toString roots.length ++ " parentless nodes: " ++ ", ".intercalate (ids roots),
      "transmission_chain"⟩]

def orphanedIssue (root l : ChainLink) : Issue :=
  ⟨.sanadOrphanedNode, "node " ++ l.id ++ " is not reachable from root " ++ root.id, l.path⟩

end ChainLink

namespace ChainGraph

/-- The issue of a cycle stands at the node that closes it. -/
def cycleIssue? (g : ChainGraph) (cycle : List Nat) : Option Issue := do
  let last ← g.nodes[← cycle.getLast?]?
  some ⟨.sanadCycleDetected,
    "cycle: " ++ " -> ".intercalate (cycle.filterMap fun i => g.nodes[i]?.map (·.id)), last.path⟩

/-- Indices that can be reached from the pending ones, added to those seen. -/
def reach (g : ChainGraph) : Nat → List Nat → List Nat → List Nat
  | _, [], seen => seen
  | 0, _, seen => seen
  | n + 1, i :: pending, seen =>
    if seen.contains i then g.reach n pending seen
    else g.reach n (g.childrenOf i ++ pending) (i :: seen)

/-- Indices of a node and its descendants. -/
def descendants (g : ChainGraph) (i : Nat) : List Nat := g.reach (g.edgeCount + 1) [i] []

end ChainGraph

open ChainLink in
/-- Analyses a chain. Only the first link of each name takes part in the tree. -/
def Linkage.ofLinks (links : List ChainLink) : Linkage :=
  let nodes := firsts links
  let graph := ChainGraph.ofLinks nodes
  let roots := nodes.filter (·.parent.isNone)
  let issues := (repeats links).map duplicateIssue ++
    nodes.filterMap (orphanReference? (ids nodes)) ++ rootIssues nodes roots ++
    graph.cycles.filterMap graph.cycleIssue?
  match roots with
  | [root] =>
    let reached := graph.descendants (nodes.idxOf root)
    { root := some root.id
      reachable := reached.length
      issues := issues ++ (nodes.mapIdx fun i l => (i, l)).filterMap fun (i, l) =>
        if reached.contains i then none else some (orphanedIssue root l) }
  | _ => { root := none, reachable := 0, issues }

end Isnad
