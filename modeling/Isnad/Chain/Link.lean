import Isnad.Issue
import Isnad.Sanad.Basic

/-! # Links of a transmission chain -/

namespace Isnad

/-- A node of a chain by its place, its name and the name of its parent. -/
structure ChainLink where
  position : Nat
  id : String
  parent : Option String
deriving DecidableEq, Repr

namespace ChainLink

/-- The links of typed nodes. -/
def ofNodes (nodes : List TransmissionNode) : List ChainLink :=
  nodes.mapIdx fun i n => ⟨i, n.id.toString, n.parent.map Uuid.toString⟩

/-- Where the node stands in its document. -/
def path (l : ChainLink) : String := "transmission_chain[" ++ toString l.position ++ "]"

/-- Names of nodes, without repeats. -/
def ids (links : List ChainLink) : List String := links.map (·.id)

end ChainLink

/-- Nodes of a chain by index, with the indices of their children. -/
structure ChainGraph where
  nodes : List ChainLink
  children : List (List Nat)
deriving DecidableEq, Repr

namespace ChainGraph

/-- Children are listed from the last to the first. -/
def ofLinks (links : List ChainLink) : ChainGraph where
  nodes := links
  children := links.map fun parent =>
    ((links.mapIdx fun i child => (i, child.parent)).filterMap fun (i, name) =>
      if name = some parent.id then some i else none).reverse

def size (g : ChainGraph) : Nat := g.nodes.length

def childrenOf (g : ChainGraph) (i : Nat) : List Nat := g.children.getD i []

def edgeCount (g : ChainGraph) : Nat := g.children.flatten.length

end ChainGraph
end Isnad
