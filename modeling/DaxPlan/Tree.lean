import DaxPlan.Error
import DaxPlan.Node

/-!
# Plan trees

The nodes of a tree live in an arena and are named by their places in it. A node lists its children in order and knows its
parent. The tree is what can be reached from the root: a walk goes down the children lists, depth first, each node before its
children and earlier children first. A walk of what is visible passes over what lies below a collapsed node.

Nodes can be linked freely, so a tree may fail to be one. `Tree.Spanning`, `Tree.Linked` and `Tree.Leveled` say what can be
asked of the links and the levels, and `Tree.WellFormed` what every tree built from plan rows satisfies.
-/

namespace DaxPlan

/-- An arena of nodes with at most one root. -/
structure Tree (α : Type) where
  nodes : Array (Node α)
  root : Option NodeId
  deriving Repr

namespace Tree

variable {α : Type}

def empty : Tree α := ⟨#[], none⟩

def size (t : Tree α) : Nat := t.nodes.size

def isEmpty (t : Tree α) : Bool := t.nodes.isEmpty

def get? (t : Tree α) (id : NodeId) : Option (Node α) := t.nodes[id]?

def contains (t : Tree α) (id : NodeId) : Bool := id < t.size

/-! ## Building -/

/-- Adds a detached node; its id is the old size of the arena. -/
def push (t : Tree α) (n : Node α) : Tree α := { t with nodes := t.nodes.push { n with id := t.size } }

/-- Changes the node with an id, if there is one. -/
def modify (t : Tree α) (id : NodeId) (f : Node α → Node α) : Tree α := { t with nodes := t.nodes.modify id f }

/-- Changes every node of the arena. -/
def map (t : Tree α) (f : Node α → Node α) : Tree α := { t with nodes := t.nodes.map f }

def setRoot (t : Tree α) (id : NodeId) : Tree α := { t with root := some id }

/-- Makes one node the last child of another. -/
def link (t : Tree α) (parent child : NodeId) : Tree α :=
  (t.modify child (fun n => { n with parent := some parent })).modify parent
    (fun n => { n with children := n.children ++ [child] })

/-- Makes one node the last child of another; both must be there. -/
def attach (t : Tree α) (parent child : NodeId) : Except (Error α) (Tree α) :=
  if !t.contains child then .error (.brokenLink child)
  else if !t.contains parent then .error (.brokenLink parent)
  else .ok (t.link parent child)

/-- Sets the level of a node, which must be there. -/
def setDepth (t : Tree α) (id : NodeId) (depth : Nat) : Except (Error α) (Tree α) :=
  if t.contains id then .ok (t.modify id (fun n => { n with depth })) else .error (.brokenLink id)

/-- Every link leads to a node: the root, and the children and the parent of each node. -/
def checkLinks (t : Tree α) : Except (Error α) Unit :=
  let links := t.root.toList ++ t.nodes.toList.flatMap (fun n => n.children ++ n.parent.toList)
  match links.find? (fun id => !t.contains id) with
  | some id => .error (.brokenLink id)
  | none => .ok ()

/-! ## Walks -/

/-- The nodes below and including one, where `next` tells which children to go down to. No path without a repetition is longer
than the arena, which bounds the depth. -/
def walkFrom (t : Tree α) (next : Node α → List NodeId) : Nat → NodeId → List NodeId
  | 0, _ => []
  | depth + 1, id =>
    match t.get? id with
    | none => []
    | some n => id :: (next n).flatMap (walkFrom t next depth)

/-- The subtree of a node, the node first. -/
def subtree (t : Tree α) (id : NodeId) : List NodeId := t.walkFrom Node.children t.size id

/-- The part of the subtree of a node that is visible once the node is. -/
def visibleSubtree (t : Tree α) (id : NodeId) : List NodeId := t.walkFrom Node.visibleChildren t.size id

/-- What lies strictly below a node. -/
def descendants (t : Tree α) (id : NodeId) : List NodeId := (t.subtree id).tail

/-- All nodes reached from the root. -/
def preOrder (t : Tree α) : List NodeId :=
  match t.root with
  | none => []
  | some root => t.subtree root

/-- All nodes reached from the root and not hidden below a collapsed node. -/
def visiblePreOrder (t : Tree α) : List NodeId :=
  match t.root with
  | none => []
  | some root => t.visibleSubtree root

/-- The nodes with the ids given, in their order. -/
def nodesAt (t : Tree α) (ids : List NodeId) : List (Node α) := ids.filterMap t.get?

/-- The parent of a node, if it is there and has one. -/
def parent? (t : Tree α) (id : NodeId) : Option NodeId := (t.get? id).bind Node.parent

/-- The ancestors of a node, from its parent up. -/
def ancestorsUpTo (t : Tree α) : Nat → NodeId → List NodeId
  | 0, _ => []
  | height + 1, id =>
    match t.parent? id with
    | none => []
    | some p => if t.contains p then p :: ancestorsUpTo t height p else []

/-- The ancestors of a node, from its parent up to the root. -/
def ancestors (t : Tree α) (id : NodeId) : List NodeId := t.ancestorsUpTo t.size id

/-- The ids from the root down to a node, itself included; none for a node that is not there. -/
def path (t : Tree α) (id : NodeId) : List NodeId :=
  if t.contains id then (t.ancestors id).reverse ++ [id] else []

/-- The number of links from a node to a child. -/
def edgeCount (t : Tree α) : Nat := Number.total ((t.nodesAt t.preOrder).map (·.children.length))

/-- The deepest level; zero in an empty tree. -/
def maxDepth (t : Tree α) : Nat := ((t.nodesAt t.preOrder).map Node.depth).foldl max 0

/-- The nodes with an operator token, in pre-order. -/
def findOperation (t : Tree α) (operation : String) : List NodeId :=
  t.preOrder.filter (fun id => (t.get? id).any (·.operation == operation))

def hasCollapsed (t : Tree α) : Bool := t.nodes.any Node.isCollapsed

/-! ## Well-formed trees -/

/-- A traversal with a stack of pending nodes: the node on top is visited and gives way to the nodes that `next` tells. The
traversal of the pending nodes is over, with the visited ones in order, once nothing is pending. -/
inductive Visits (t : Tree α) (next : Node α → List NodeId) : List NodeId → List NodeId → Prop where
  | done : Visits t next [] []
  | visit {id : NodeId} {n : Node α} {pending visited : List NodeId} :
      t.get? id = some n → Visits t next (next n ++ pending) visited → Visits t next (id :: pending) (id :: visited)

/-- Every node of the arena is reached from the root exactly once. The ids are the places in the arena. -/
structure Spanning (t : Tree α) : Prop where
  ids : ∀ i n, t.get? i = some n → n.id = i
  traversal : t.Visits Node.children t.root.toList t.preOrder
  reached : ∀ i, i < t.size → i ∈ t.preOrder
  once : t.preOrder.Nodup

/-- The parent links match the children lists. -/
def Linked (t : Tree α) : Prop :=
  ∀ i n p, t.get? i = some n → (n.parent = some p ↔ ∃ m, t.get? p = some m ∧ i ∈ m.children)

/-- A child lies one level below its parent. -/
def Leveled (t : Tree α) : Prop :=
  ∀ i n c m, t.get? i = some n → c ∈ n.children → t.get? c = some m → m.depth = n.depth + 1

/-- What a tree built from rows satisfies: the links make it a tree, with levels from zero at the root. -/
structure WellFormed (t : Tree α) : Prop extends Spanning t where
  linked : t.Linked
  leveled : t.Leveled
  root_depth : ∀ r n, t.root = some r → t.get? r = some n → n.depth = 0

end Tree

end DaxPlan
