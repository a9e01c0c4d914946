import DaxPlan.Proofs.Layout.Lockstep
import DaxPlan.Proofs.Strict.Access

/-!
# Layouts, strictly

A layout reads and writes nodes and entries of tables by the ids of visible nodes and of the children that these show. All of
them are places of the tree, the tables are as long as the arena, and no pass changes the links or the number of nodes. So every
pass does strictly what it does (`arrange_eq`).
-/

namespace DaxPlan.Strict

open DaxPlan.Tree Layout

variable {α : Type} [Quantity α]

/-! ## Placement -/

/-- Gives each node without a size the default one. -/
def applyDefaultSizes (config : LayoutConfig α) (order : List NodeId) (t : Tree α) : Option (Tree α) :=
  order.foldlM (fun t id => update t id (applyDefaultSize config)) t

/-- The width of children side by side, read off the table of widths. -/
def childrenSpan (children : List NodeId) (widths : Table α) (spacing : α) : Option α := do
  let each ← children.mapM (widths[·]?)
  return Quantity.sum each + Quantity.ofNat (children.length - 1) * spacing

/-- Notes the width of the subtree of a node, once those of its children are noted. -/
def noteWidth (t : Tree α) (spacing : α) (id : NodeId) (widths : Table α) : Option (Table α) := do
  let n ← t.get? id
  let width ← if n.visibleChildren.isEmpty then some n.width
    else (childrenSpan n.visibleChildren widths spacing).map (Quantity.max n.width)
  write widths id width

/-- The table of the widths of all subtrees, filled from the leaves up. -/
def subtreeWidths (t : Tree α) (order : List NodeId) (spacing : α) : Option (Table α) :=
  order.foldrM (noteWidth t spacing) (Array.replicate t.size Quantity.zero)

/-- Hands out places to children from left to right. -/
def handOut (widths : Table α) (spacing : α) : List NodeId → α → Table α → Option (Table α)
  | [], _, places => some places
  | child :: rest, left, places => do
    let places ← write places child left
    let width ← widths[child]?
    handOut widths spacing rest (left + (width + spacing)) places

/-- Hands out places to the children of a node within its own. -/
def handOutBelow (t : Tree α) (widths : Table α) (spacing : α) (places : Table α) (id : NodeId) : Option (Table α) := do
  let n ← t.get? id
  if n.visibleChildren.isEmpty then return places
  else
    let span ← childrenSpan n.visibleChildren widths spacing
    let left ← places[id]?
    let left := if Quantity.lt span n.width then left + Quantity.half (n.width - span) else left
    handOut widths spacing n.visibleChildren left places

/-- The table of the places of all subtrees, filled from the root down. -/
def places (t : Tree α) (order : List NodeId) (widths : Table α) (spacing : α) : Option (Table α) :=
  order.foldlM (handOutBelow t widths spacing) (Array.replicate t.size Quantity.zero)

/-- Where the left edge of a node goes: a node that is no wider than its children stands above the middle of the outer ones, any
other one at its place. -/
def leftEdge (t : Tree α) (widths places : Table α) (spacing : α) (id : NodeId) (n : Node α) : Option α :=
  match n.visibleChildren.head?, n.visibleChildren.getLast? with
  | some first, some last => do
    let span ← childrenSpan n.visibleChildren widths spacing
    if Quantity.le n.width span then
      let a ← t.get? first
      let b ← t.get? last
      return Quantity.half (a.x + (b.x + b.width)) - Quantity.half n.width
    else places[id]?
  | _, _ => places[id]?

/-- Puts a node at its place. -/
def placeNode (config : LayoutConfig α) (widths places : Table α) (id : NodeId) (t : Tree α) : Option (Tree α) := do
  let n ← t.get? id
  let x ← leftEdge t widths places config.horizontalSpacing id n
  let y := Quantity.ofNat n.depth * config.levelHeight
  update t id (fun n => { n with x, y })

/-- Gives each node of a list its first place. -/
def place (config : LayoutConfig α) (order : List NodeId) (t : Tree α) : Option (Tree α) := do
  let widths ← subtreeWidths t order config.horizontalSpacing
  let places ← places t order widths config.horizontalSpacing
  order.foldrM (placeNode config widths places) t

variable {config : LayoutConfig α} {order : List NodeId} {t : Tree α} {id : NodeId} {spacing : α}

/-- Every node that gets a size is there. -/
theorem applyDefaultSizes_eq (h : Fits order t) :
    applyDefaultSizes config order t = some (Layout.applyDefaultSizes config order t) :=
  (foldlM_eq (Fits order) (fun u hu id hid => ⟨update_eq (hu.inRange id hid) _,
    hu.of_agrees (Agrees.modify u id (applyDefaultSize config) (fun _ => rfl))⟩) h).1

/-- Children have entries in the table of widths. -/
theorem childrenSpan_eq {children : List NodeId} {widths : Table α} (h : ∀ c ∈ children, c < widths.size) :
    childrenSpan children widths spacing = some (Layout.childrenSpan children widths spacing) := by
  rw [childrenSpan, then_eq (mapM_eq (fun c hc => read_eq (h c hc) Quantity.zero))]
  rfl

/-- A width is noted for a node that is there, and the table keeps its size. -/
theorem noteWidth_eq (h : t.Spanning) (hid : id < t.size) {widths : Table α} (hwidths : widths.size = t.size) :
    noteWidth t spacing id widths = some (Layout.noteWidth t spacing id widths) ∧
      (Layout.noteWidth t spacing id widths).size = t.size := by
  obtain ⟨n, hn⟩ := lt_size_iff.mp hid
  unfold noteWidth Layout.noteWidth
  rw [then_eq hn, hn]
  dsimp only
  refine ⟨?_, by rw [Array.size_setIfInBounds, hwidths]⟩
  split
  · exact write_eq (hwidths ▸ hid) _
  · rw [childrenSpan_eq (fun c hc => hwidths ▸ h.visibleChild_lt_size hn hc), Option.map_some]
    exact write_eq (hwidths ▸ hid) _

/-- Widths are noted and read within the table. -/
theorem subtreeWidths_eq (h : Fits order t) (spacing : α) :
    subtreeWidths t order spacing = some (Layout.subtreeWidths t order spacing) ∧
      (Layout.subtreeWidths t order spacing).size = t.size :=
  foldrM_eq (fun widths : Table α => widths.size = t.size)
    (fun _ hwidths id hid => noteWidth_eq h.spanning (h.inRange id hid) hwidths) Array.size_replicate

/-- Places are handed out within the table, which keeps its size. -/
theorem handOut_eq {children : List NodeId} {widths places : Table α} {size : Nat} (hwidths : widths.size = size)
    (hplaces : places.size = size) (h : ∀ c ∈ children, c < size) (left : α) :
    handOut widths spacing children left places = some (Layout.handOut widths spacing children left places) ∧
      (Layout.handOut widths spacing children left places).size = size := by
  induction children generalizing left places with
  | nil => exact ⟨rfl, hplaces⟩
  | cons child rest ih =>
    have hchild := h child List.mem_cons_self
    rw [handOut, Layout.handOut, then_eq (write_eq (hplaces ▸ hchild) left),
      then_eq (read_eq (hwidths ▸ hchild) Quantity.zero)]
    exact ih ((Array.size_setIfInBounds).trans hplaces) (fun c hc => h c (List.mem_cons_of_mem child hc)) _

/-- A node that gets a place for its children has one, and so have they. -/
theorem handOutBelow_eq (h : t.Spanning) (hid : id < t.size) {widths places : Table α} (hwidths : widths.size = t.size)
    (hplaces : places.size = t.size) :
    handOutBelow t widths spacing places id = some (Layout.handOutBelow t widths spacing places id) ∧
      (Layout.handOutBelow t widths spacing places id).size = t.size := by
  obtain ⟨n, hn⟩ := lt_size_iff.mp hid
  have hchildren : ∀ c ∈ n.visibleChildren, c < t.size := fun c hc => h.visibleChild_lt_size hn hc
  unfold handOutBelow Layout.handOutBelow
  rw [then_eq hn, hn]
  dsimp only
  split
  · exact ⟨rfl, hplaces⟩
  · rw [then_eq (childrenSpan_eq (fun c hc => hwidths ▸ hchildren c hc)), then_eq (read_eq (hplaces ▸ hid) Quantity.zero)]
    exact handOut_eq hwidths hplaces hchildren _

/-- Places are handed out and read within the table. -/
theorem places_eq (h : Fits order t) {widths : Table α} (hwidths : widths.size = t.size) (spacing : α) :
    places t order widths spacing = some (Layout.places t order widths spacing) ∧
      (Layout.places t order widths spacing).size = t.size :=
  foldlM_eq (fun places : Table α => places.size = t.size)
    (fun _ hplaces id hid => handOutBelow_eq h.spanning (h.inRange id hid) hwidths hplaces) Array.size_replicate

/-- The first and the last child are read only where there are children. -/
theorem leftEdge_eq (h : t.Spanning) {n : Node α} (hn : t.get? id = some n) {widths places : Table α}
    (hwidths : widths.size = t.size) (hplaces : places.size = t.size) :
    leftEdge t widths places spacing id n = some (Layout.leftEdge t widths places spacing n) := by
  have hid : id < t.size := lt_size_iff.mpr ⟨n, hn⟩
  have hchildren : ∀ c ∈ n.visibleChildren, c < t.size := fun c hc => h.visibleChild_lt_size hn hc
  have hplace : places[id]? = some (places.get n.id) := by
    rw [h.ids id n hn]
    exact read_eq (hplaces ▸ hid) Quantity.zero
  unfold leftEdge Layout.leftEdge
  cases hfirst : n.visibleChildren.head? with
  | none => exact hplace
  | some first =>
    cases hlast : n.visibleChildren.getLast? with
    | none =>
      rw [Option.bind_none]
      cases (some first).bind t.get? <;> exact hplace
    | some last =>
      obtain ⟨a, ha⟩ := lt_size_iff.mp (hchildren first (List.mem_of_head? hfirst))
      obtain ⟨b, hb⟩ := lt_size_iff.mp (hchildren last (List.mem_of_getLast? hlast))
      rw [Option.bind_some, Option.bind_some, ha, hb]
      dsimp only
      rw [then_eq (childrenSpan_eq (fun c hc => hwidths ▸ hchildren c hc))]
      split
      · rw [then_eq ha, then_eq hb]
        rfl
      · exact hplace

/-- A node that is put at its place has an entry in both tables. -/
theorem placeNode_eq (h : t.Spanning) (hid : id < t.size) {widths places : Table α} (hwidths : widths.size = t.size)
    (hplaces : places.size = t.size) :
    placeNode config widths places id t = some (Layout.placeNode config widths places id t) := by
  obtain ⟨n, hn⟩ := lt_size_iff.mp hid
  unfold placeNode Layout.placeNode
  rw [then_eq hn, then_eq (leftEdge_eq h hn hwidths hplaces), hn]
  exact update_eq hid _

/-- The first placement never fails. -/
theorem place_eq (h : Fits order t) : place config order t = some (Layout.place config order t) := by
  obtain ⟨hwidths, hwidthsSize⟩ := subtreeWidths_eq h config.horizontalSpacing
  obtain ⟨hplaces, hplacesSize⟩ := places_eq h hwidthsSize config.horizontalSpacing
  rw [place, then_eq hwidths, then_eq hplaces]
  refine (foldrM_eq (fun u => Agrees Node.links t u) (fun u hu id hid => ?_) (Agrees.refl _ t)).1
  have hfits := h.of_agrees hu
  refine ⟨placeNode_eq hfits.spanning (hfits.inRange id hid) (hwidthsSize.trans hu.size_eq.symm)
    (hplacesSize.trans hu.size_eq.symm), hu.trans ?_⟩
  exact (placeNode_agrees config _ _ id u).view Node.links (fun _ => rfl)

/-! ## Overlaps -/

/-- The ids by level, from the top. -/
def levels (t : Tree α) (order : List NodeId) : Option (List (List NodeId)) := do
  let leveled ← order.mapM (fun id => (t.get? id).map (fun n => (n.depth, id)))
  let depths := ((leveled.map Prod.fst).mergeSort (· ≤ ·)).eraseDups
  return depths.map (fun depth => (leveled.filter (·.1 == depth)).map Prod.snd)

/-- The ids from left to right. -/
def fromLeft (t : Tree α) (ids : List NodeId) : Option (List NodeId) := do
  let edges ← ids.mapM (fun id => (t.get? id).map (fun n => (n.x, id)))
  return (edges.mergeSort (fun a b => ((Quantity.order a.1 b.1).then (compare a.2 b.2)).isLE)).map Prod.snd

/-- Shifts pending nodes and what they show below them, in so many steps at most. -/
def shiftPending (dx : α) : Nat → List NodeId → Tree α → Option (Tree α)
  | _, [], t => some t
  | 0, _ :: _, _ => none
  | steps + 1, id :: pending, t => do
    let n ← t.get? id
    let t ← update t id (fun n => { n with x := n.x + dx })
    shiftPending dx steps (n.visibleChildren.reverse ++ pending) t

/-- Shifts a node and all that is visible below it. -/
def shiftSubtree (t : Tree α) (id : NodeId) (dx : α) : Option (Tree α) := shiftPending dx t.size [id] t

/-- Goes along a level and shifts what stands too near to its left neighbour. -/
def sweepLevel (config : LayoutConfig α) : List NodeId → Tree α × Nat → Option (Tree α × Nat)
  | left :: right :: rest, (t, shifts) => do
    let a ← t.get? left
    let b ← t.get? right
    let gap := a.x + a.width + config.horizontalSpacing - b.x
    if Quantity.lt config.overlapTolerance gap then
      let shifted ← shiftSubtree t right gap
      sweepLevel config (right :: rest) (shifted, shifts + 1)
    else sweepLevel config (right :: rest) (t, shifts)
  | _, result => some result

/-- Sweeps one more level. -/
def sweepNext (config : LayoutConfig α) (result : Tree α × Nat) (ids : List NodeId) : Option (Tree α × Nat) := do
  let sorted ← fromLeft result.1 ids
  sweepLevel config sorted result

/-- Sweeps all levels. -/
def sweep (config : LayoutConfig α) (levels : List (List NodeId)) (t : Tree α) : Option (Tree α × Nat) :=
  levels.foldlM (sweepNext config) (t, 0)

/-- Puts a node above the middle of its outer children. -/
def recenterNode (t : Tree α) (id : NodeId) : Option (Tree α) := do
  let n ← t.get? id
  let centers ← n.visibleChildren.mapM (fun c => (t.get? c).map Node.centerX)
  match extremes centers with
  | none => some t
  | some (low, high) => update t id (fun n => { n with x := Quantity.half (low + high) - Quantity.half n.width })

/-- Puts the nodes of all levels above the middle of their children, from the lowest level up. -/
def recenter (levels : List (List NodeId)) (t : Tree α) : Option (Tree α) :=
  levels.reverse.foldlM (fun t ids => ids.foldlM recenterNode t) t

/-- Sweeps and centres again until a sweep shifts nothing, for a number of rounds. -/
def resolveRounds (config : LayoutConfig α) (levels : List (List NodeId)) : Nat → Tree α → Stats → Option (Tree α × Stats)
  | more, t, stats => do
    let swept ← sweep config levels t
    let stats := { stats with rounds := stats.rounds + 1, shifts := stats.shifts + swept.2 }
    if swept.2 == 0 then return (swept.1, { stats with converged := true })
    else match more with
      | 0 => return (swept.1, stats)
      | more + 1 =>
        let recentered ← recenter levels swept.1
        resolveRounds config levels more recentered stats

/-- The geometry of the visible nodes, computed anew. -/
def arrange (config : LayoutConfig α) (order : List NodeId) (t : Tree α) : Option (Tree α × Stats) := do
  let sized ← applyDefaultSizes config order t
  let placed ← place config order sized
  let levels ← levels placed order
  resolveRounds config levels (max config.maxOverlapIterations 1 - 1) placed { visibleNodes := order.length }

/-- The nodes that levels are made of are there. -/
theorem levels_eq {α : Type} {order : List NodeId} {t : Tree α} (h : Fits order t) :
    levels t order = some (Layout.levels t order) := by
  have hread := mapM_node_eq t order (fun id n => (n.depth, id)) (fun n => (n.depth, n.id))
    (fun i hi => by
      obtain ⟨n, hn⟩ := lt_size_iff.mp (h.inRange i hi)
      exact ⟨n, hn, by rw [h.spanning.ids i n hn]⟩)
  rw [levels, then_eq hread]
  rfl

/-- Sorting by edges that were read beforehand is sorting by the edges. -/
theorem fromLeft_eq {ids : List NodeId} (h : Fits ids t) : fromLeft t ids = some (Layout.fromLeft t ids) := by
  have hread : ids.mapM (fun id => (t.get? id).map (fun n => (n.x, id))) = some (ids.map (fun id => (xOf t id, id))) := by
    refine mapM_eq (fun id hid => ?_)
    obtain ⟨n, hn⟩ := lt_size_iff.mp (h.inRange id hid)
    rw [xOf, hn]
    rfl
  have hsort : (ids.map (fun id => (xOf t id, id))).mergeSort
      (fun a b => ((Quantity.order a.1 b.1).then (compare a.2 b.2)).isLE) =
        (Layout.fromLeft t ids).map (fun id => (xOf t id, id)) :=
    (List.map_mergeSort (f := fun id => (xOf t id, id)) (fun _ _ _ _ => rfl)).symm
  rw [fromLeft, then_eq hread, hsort, List.map_map]
  exact congrArg some (List.map_id _)

/-- A node moved to the right. -/
def moved (dx : α) (n : Node α) : Node α := { n with x := n.x + dx }

/-- A shift goes through the nodes that a traversal visits, if the steps suffice. -/
theorem shiftPending_eq {dx : α} {s v : List NodeId} (h : t.Visits (fun n => n.visibleChildren.reverse) s v) {steps : Nat}
    (hsteps : v.length ≤ steps) {u : Tree α} (hu : Agrees Node.visibleChildren t u) :
    shiftPending dx steps s u = some (v.foldl (fun t id => t.modify id (moved dx)) u) := by
  induction h generalizing steps u with
  | done => cases steps <;> rfl
  | @visit id n pending visited hn _ ih =>
    cases steps with
    | zero => cases hsteps
    | succ steps =>
      obtain ⟨m, hm, hchildren⟩ := hu.get? hn
      rw [shiftPending, then_eq hm, then_eq (update_eq (lt_size_iff.mpr ⟨m, hm⟩) _), hchildren, List.foldl_cons]
      exact ih (Nat.le_of_succ_le_succ hsteps) (hu.trans (Agrees.modify u id (moved dx) (fun _ => rfl)))

/-- Nodes may be moved in any order. -/
theorem moved_comm (dx : α) (i j : NodeId) (t : Tree α) :
    (t.modify i (moved dx)).modify j (moved dx) = (t.modify j (moved dx)).modify i (moved dx) := by
  refine ext_get? rfl (fun k => ?_)
  simp only [get?_modify]
  split <;> split <;> rfl

/-- The last child is shifted first; the tree is the same in the end. -/
theorem shiftSubtree_eq (h : t.Spanning) (hid : id < t.size) (dx : α) :
    shiftSubtree t id dx = some (Layout.shiftSubtree t id dx) := by
  -- The two walks visit the same nodes in another order, and moves commute.
  obtain ⟨w, hperm, hw⟩ := (h.visibleSubtree_spec hid).1.reversed
  rw [List.reverse_singleton] at hw
  have hlength : w.length ≤ t.size := hperm.length_eq ▸ h.length_visibleSubtree_le hid
  rw [shiftSubtree, shiftPending_eq hw hlength (Agrees.refl _ t)]
  exact congrArg some (hperm.foldl_eq' (fun i _ j _ u => moved_comm dx i j u) t)

/-- The nodes of a level are there, also when some of them have been shifted. -/
theorem sweepLevel_eq {ids : List NodeId} (h : Fits ids t) (shifts : Nat) :
    sweepLevel config ids (t, shifts) = some (Layout.sweepLevel config ids (t, shifts)) := by
  induction ids generalizing t shifts with
  | nil => rfl
  | cons left ids ih =>
    cases ids with
    | nil => rfl
    | cons right rest =>
      obtain ⟨a, ha⟩ := lt_size_iff.mp (h.inRange left List.mem_cons_self)
      have hright := h.inRange right (List.mem_cons_of_mem left List.mem_cons_self)
      obtain ⟨b, hb⟩ := lt_size_iff.mp hright
      have hrest : Fits (right :: rest) t := ⟨h.spanning, fun i hi => h.inRange i (List.mem_cons_of_mem left hi)⟩
      have hgap : deficit config t left right = a.x + a.width + config.horizontalSpacing - b.x := by
        rw [deficit, xOf, widthOf, xOf, ha, hb]
        rfl
      rw [sweepLevel, Layout.sweepLevel, then_eq ha, then_eq hb, hgap]
      dsimp only
      split
      · rw [then_eq (shiftSubtree_eq h.spanning hright _)]
        exact ih (hrest.of_agrees ((shiftSubtree_agrees t right _).view Node.links (fun _ => rfl))) _
      · exact ih hrest shifts

/-- No sweep fails. -/
theorem sweep_eq {levels : List (List NodeId)} (h : ∀ ids ∈ levels, Fits ids t) :
    sweep config levels t = some (Layout.sweep config levels t) := by
  -- Shifting changes no link, so each level fits the tree the levels before it have left.
  refine (foldlM_eq (fun result => Agrees Node.links t result.1) (fun result hresult ids hids => ?_) (Agrees.refl _ t)).1
  have hfits := (h ids hids).of_agrees hresult
  have hsorted : Fits (Layout.fromLeft result.1 ids) result.1 :=
    ⟨hfits.spanning, fun i hi => hfits.inRange i (List.mem_mergeSort.mp hi)⟩
  rw [sweepNext, then_eq (fromLeft_eq hfits)]
  exact ⟨sweepLevel_eq hsorted result.2,
    hresult.trans ((sweepLevel_agrees config _ result.1 result.2).view Node.links (fun _ => rfl))⟩

/-- The children that a node is centred above are there. -/
theorem recenterNode_eq (h : t.Spanning) (hid : id < t.size) : recenterNode t id = some (Layout.recenterNode t id) := by
  obtain ⟨n, hn⟩ := lt_size_iff.mp hid
  have hcenters := mapM_node_eq t n.visibleChildren (fun _ => Node.centerX) Node.centerX
    (fun c hc => by
      obtain ⟨m, hm⟩ := lt_size_iff.mp (h.visibleChild_lt_size hn hc)
      exact ⟨m, hm, rfl⟩)
  rw [recenterNode, Layout.recenterNode, then_eq hn, then_eq hcenters, childCenters, visibleChildren_eq hn]
  cases extremes ((t.nodesAt n.visibleChildren).map Node.centerX) with
  | none => rfl
  | some bounds => exact update_eq hid _

/-- Centring never fails. -/
theorem recenter_eq {levels : List (List NodeId)} (h : ∀ ids ∈ levels, Fits ids t) :
    recenter levels t = some (Layout.recenter levels t) := by
  refine (foldlM_eq (fun u => Agrees Node.links t u) (fun u hu ids hids => ?_) (Agrees.refl _ t)).1
  have hlevel := h ids (List.mem_reverse.mp hids)
  refine foldlM_eq (fun u => Agrees Node.links t u) (fun u hu id hid => ?_) hu
  have hfits := hlevel.of_agrees hu
  exact ⟨recenterNode_eq hfits.spanning (hfits.inRange id hid),
    hu.trans ((recenterNode_agrees u id).view Node.links (fun _ => rfl))⟩

/-- No round fails, however many there are. -/
theorem resolveRounds_eq {levels : List (List NodeId)} (h : ∀ ids ∈ levels, Fits ids t) (more : Nat) (stats : Stats) :
    resolveRounds config levels more t stats = some (Layout.resolveRounds config levels more t stats) := by
  induction more generalizing t stats with
  | zero =>
    rw [resolveRounds, Layout.resolveRounds, then_eq (sweep_eq h)]
    dsimp only
    split <;> rfl
  | succ more ih =>
    have hswept : ∀ ids ∈ levels, Fits ids (Layout.sweep config levels t).1 :=
      fun ids hids => (h ids hids).of_agrees ((sweep_agrees config levels t).view Node.links (fun _ => rfl))
    have hrecentered : ∀ ids ∈ levels, Fits ids (Layout.recenter levels (Layout.sweep config levels t).1) :=
      fun ids hids => (hswept ids hids).of_agrees ((recenter_agrees levels _).view Node.links (fun _ => rfl))
    rw [resolveRounds, Layout.resolveRounds, then_eq (sweep_eq h)]
    dsimp only
    split
    · rfl
    · rw [then_eq (recenter_eq hswept)]
      exact ih hrecentered _

/-- A layout of a spanning tree is a strict layout. -/
theorem arrange_eq (config : LayoutConfig α) (h : t.Spanning) :
    arrange config t.visiblePreOrder t = some (Engine.arrange config t) := by
  have hfits := fits_visiblePreOrder h
  have hsized := hfits.of_agrees ((applyDefaultSizes_agrees config t.visiblePreOrder t).view Node.links (fun _ => rfl))
  have hplaced := hsized.of_agrees ((place_agrees config t.visiblePreOrder _).view Node.links (fun _ => rfl))
  have hlevels : ∀ ids ∈ Layout.levels (Layout.place config t.visiblePreOrder
      (Layout.applyDefaultSizes config t.visiblePreOrder t)) t.visiblePreOrder, Fits ids (Layout.place config t.visiblePreOrder
      (Layout.applyDefaultSizes config t.visiblePreOrder t)) := by
    refine fun ids hids => ⟨hplaced.spanning, fun i hi => hplaced.inRange i (mem_order_of_mem_levels (fun j hj => ?_) hids hi)⟩
    obtain ⟨n, hn⟩ := lt_size_iff.mp (hplaced.inRange j hj)
    exact ⟨n, hn, hplaced.spanning.ids j n hn⟩
  rw [arrange, then_eq (applyDefaultSizes_eq hfits), then_eq (place_eq hsized), then_eq (levels_eq hplaced)]
  exact resolveRounds_eq hlevels _ _

end DaxPlan.Strict
