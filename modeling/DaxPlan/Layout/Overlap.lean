import DaxPlan.Layout.Placement

/-!
# Overlap resolution

A sweep goes over the levels from the top, and over the nodes of a level from left to right: a node closer to its left neighbour
than the gap, by more than the tolerance, is shifted right together with its visible subtree. Sweeps alternate with putting
parents back over the middle of their children, until a sweep shifts nothing or the rounds are used up. The last thing done is a
sweep, so what may be left undone is a parent off its middle, never an overlap on a level.
-/

namespace DaxPlan.Layout

/-- What a layout run did. -/
structure Stats where
  visibleNodes : Nat := 0
  /-- Sweeps made. -/
  rounds : Nat := 0
  /-- Subtrees shifted, over all sweeps. -/
  shifts : Nat := 0
  /-- The last sweep shifted nothing. -/
  converged : Bool := false
  deriving DecidableEq, Repr

variable {α : Type} [Quantity α]

/-- The visible nodes by level, from the top; within a level as in the walk. -/
def levels (t : Tree α) (order : List NodeId) : List (List NodeId) :=
  let leveled := (t.nodesAt order).map (fun n => (n.depth, n.id))
  let depths := ((leveled.map Prod.fst).mergeSort (· ≤ ·)).eraseDups
  depths.map (fun depth => (leveled.filter (·.1 == depth)).map Prod.snd)

/-- The left edge of a node. -/
def xOf (t : Tree α) (id : NodeId) : α := ((t.get? id).map Node.x).getD Quantity.zero

/-- The width of a node. -/
def widthOf (t : Tree α) (id : NodeId) : α := ((t.get? id).map Node.width).getD Quantity.zero

/-- The nodes of a level from left to right; of two in one place the one with the lower id first. -/
def fromLeft (t : Tree α) (ids : List NodeId) : List NodeId :=
  ids.mergeSort (fun a b => ((Quantity.order (xOf t a) (xOf t b)).then (compare a b)).isLE)

/-- Shifts a node and its visible subtree to the right. -/
def shiftSubtree (t : Tree α) (id : NodeId) (dx : α) : Tree α :=
  (t.visibleSubtree id).foldl (fun t id => t.modify id (fun n => { n with x := n.x + dx })) t

/-- By how much a node is too close to its left neighbour. -/
def deficit (config : LayoutConfig α) (t : Tree α) (left right : NodeId) : α :=
  xOf t left + widthOf t left + config.horizontalSpacing - xOf t right

/-- Shifts the nodes of a level that are too close to their left neighbours, and counts the shifts. The order of the nodes is that
before the first shift. -/
def sweepLevel (config : LayoutConfig α) : List NodeId → Tree α × Nat → Tree α × Nat
  | left :: right :: rest, (t, shifts) =>
    let gap := deficit config t left right
    sweepLevel config (right :: rest)
      (if Quantity.lt config.overlapTolerance gap then (shiftSubtree t right gap, shifts + 1) else (t, shifts))
  | _, result => result

/-- A sweep over one more level, from left to right. -/
def sweepNext (config : LayoutConfig α) (result : Tree α × Nat) (ids : List NodeId) : Tree α × Nat :=
  sweepLevel config (fromLeft result.1 ids) result

/-- A sweep over all levels, with the number of shifts. -/
def sweep (config : LayoutConfig α) (levels : List (List NodeId)) (t : Tree α) : Tree α × Nat :=
  levels.foldl (sweepNext config) (t, 0)

/-- The smallest and the largest of some quantities. -/
def extremes : List α → Option (α × α)
  | [] => none
  | x :: rest => some (rest.foldl (fun e y => (Quantity.min e.1 y, Quantity.max e.2 y)) (x, x))

/-- The centres of the visible children of a node. -/
def childCenters (t : Tree α) (id : NodeId) : List α := (t.nodesAt (visibleChildren t id)).map Node.centerX

/-- Puts a node over the middle of its visible children. -/
def recenterNode (t : Tree α) (id : NodeId) : Tree α :=
  match extremes (childCenters t id) with
  | none => t
  | some (low, high) => t.modify id (fun n => { n with x := Quantity.half (low + high) - Quantity.half n.width })

/-- Puts all nodes over the middle of their visible children, from the deepest level up. -/
def recenter (levels : List (List NodeId)) (t : Tree α) : Tree α :=
  levels.reverse.foldl (fun t ids => ids.foldl recenterNode t) t

/-- Sweeps until nothing is shifted, with so many rounds left after the next one. -/
def resolveRounds (config : LayoutConfig α) (levels : List (List NodeId)) : Nat → Tree α → Stats → Tree α × Stats
  | more, t, stats =>
    let (swept, shifted) := sweep config levels t
    let stats := { stats with rounds := stats.rounds + 1, shifts := stats.shifts + shifted }
    if shifted == 0 then (swept, { stats with converged := true })
    else match more with
      | 0 => (swept, stats)
      | more + 1 => resolveRounds config levels more (recenter levels swept) stats

/-- Resolves overlaps; there is at least one round. -/
def resolveOverlaps (config : LayoutConfig α) (order : List NodeId) (t : Tree α) : Tree α × Stats :=
  resolveRounds config (levels t order) (max config.maxOverlapIterations 1 - 1) t { visibleNodes := order.length }

end DaxPlan.Layout
