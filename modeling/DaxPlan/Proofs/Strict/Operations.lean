import DaxPlan.Proofs.Layout.Replay
import DaxPlan.Proofs.Strict.Layout

/-!
# Operations on a plan, strictly

Auto-collapse keeps footprints in a table by id, and compares visible nodes by their entries; it folds visible nodes only. An
action unfolds ancestors that are there or changes a node that was asked for. After that a plan is laid out. On a plan whose
links make a tree a controller does all of it strictly (`new_eq`, `apply_eq`, `replacePlan_eq`), whatever its engine remembers.
-/

namespace DaxPlan.Strict

open DaxPlan.Tree Layout

/-! ## Footprints and auto-collapse -/

section

variable {α : Type}

/-- The number of leaf places of a node. -/
def footprint (t : Tree α) (id : NodeId) : Option Nat :=
  if !t.contains id then some 0
  else (walk t (fun n => n.visibleChildren.reverse) t.size [id]).map (·.countP (·.visibleChildren.isEmpty))

/-- Notes the footprint of a node, once those of its children are noted. -/
def noteFootprint (t : Tree α) (id : NodeId) (table : Array Nat) : Option (Array Nat) := do
  let n ← t.get? id
  let places ← if n.visibleChildren.isEmpty then some 1 else (n.visibleChildren.mapM (table[·]?)).map Number.total
  write table id places

/-- The table of the footprints of all visible nodes. -/
def visibleFootprints (t : Tree α) : Option (Array Nat) := do
  let order ← visiblePreOrder t
  order.foldrM (noteFootprint t) (Array.replicate t.size 0)

/-- Compares two nodes for folding by the table of footprints. -/
def foldsBefore (footprints : Array Nat) (a b : Node α) : Option Bool := do
  let x ← footprints[a.id]?
  let y ← footprints[b.id]?
  return b.depth < a.depth || (b.depth == a.depth && (y < x || (y == x && a.id ≤ b.id)))

/-- The node to be folded next, if there is one. -/
def collapseCandidate (t : Tree α) : Option (Option NodeId) := do
  let footprints ← visibleFootprints t
  let nodes ← visibleNodes t
  match nodes.filter (fun n => !n.visibleChildren.isEmpty) with
  | [] => return none
  | first :: rest =>
    let best ← rest.foldlM (fun best n => (foldsBefore footprints n best).map (fun before => if before then n else best)) first
    return some best.id

/-- Folds or opens a node. -/
def setCollapsed (t : Tree α) (id : NodeId) (value : Bool) : Option (Tree α) :=
  update t id (fun n => { n with isCollapsed := value })

/-- Folds nodes until the footprint of the root is at most the target. -/
def autoCollapse (target : Nat) : Nat → Tree α → Option (Tree α × List NodeId)
  | 0, t => some (t, [])
  | iterations + 1, t =>
    match t.root with
    | none => some (t, [])
    | some root => do
      let current ← footprint t root
      if current ≤ target then return (t, [])
      else match ← collapseCandidate t with
        | none => return (t, [])
        | some id =>
          let folded ← setCollapsed t id true
          let result ← autoCollapse target iterations folded
          return (result.1, id :: result.2)

variable {t : Tree α} {id : NodeId}

/-- A node that is folded is there. -/
theorem setCollapsed_eq (hid : id < t.size) (value : Bool) : setCollapsed t id value = some (t.setCollapsed id value) :=
  update_eq hid _

/-- Counting the leaves below a node never fails, also if there is no such node. -/
theorem footprint_eq (h : t.Spanning) (id : NodeId) : footprint t id = some (t.footprint id) := by
  unfold footprint Tree.footprint
  cases hid : t.contains id with
  | false =>
    have hnone : t.get? id = none := by
      cases hn : t.get? id with
      | none => rfl
      | some n =>
        rw [contains, decide_eq_false_iff_not] at hid
        exact absurd (lt_size_iff.mpr ⟨n, hn⟩) hid
    rw [visibleSubtree, walkFrom_of_none hnone]
    rfl
  | true =>
    have hlt : id < t.size := of_decide_eq_true hid
    obtain ⟨w, hperm, hw⟩ := (h.visibleSubtree_spec hlt).1.reversed
    rw [List.reverse_singleton] at hw
    have hlength : w.length ≤ t.size := hperm.length_eq ▸ h.length_visibleSubtree_le hlt
    have hcount : (t.nodesAt w).countP (·.visibleChildren.isEmpty) = w.countP t.showsNoChildren := by
      rw [nodesAt, List.countP_filterMap]
      refine congrArg (fun p => w.countP p) (funext fun i => ?_)
      rw [showsNoChildren]
      cases t.get? i <;> rfl
    rw [walk_eq hw hlength, Option.map_some, hcount, hperm.countP_eq]
    rfl

/-- A footprint is noted within the table, from entries of it. -/
theorem noteFootprint_eq (h : t.Spanning) (hid : id < t.size) {table : Array Nat} (htable : table.size = t.size) :
    noteFootprint t id table = some (table.setIfInBounds id
      (if (((t.get? id).map Node.visibleChildren).getD []).isEmpty then 1
        else Number.total ((((t.get? id).map Node.visibleChildren).getD []).map (fun c => table[c]?.getD 0)))) := by
  obtain ⟨n, hn⟩ := lt_size_iff.mp hid
  unfold noteFootprint
  rw [then_eq hn, hn, Option.map_some, Option.getD_some]
  split
  · exact write_eq (htable ▸ hid) _
  · rw [mapM_eq (fun c hc => read_eq (htable ▸ h.visibleChild_lt_size hn hc) 0)]
    exact write_eq (htable ▸ hid) _

/-- The table of footprints is filled within its size. -/
theorem visibleFootprints_eq (h : t.Spanning) :
    visibleFootprints t = some t.visibleFootprints ∧ t.visibleFootprints.size = t.size := by
  rw [visibleFootprints, then_eq (visiblePreOrder_eq h)]
  refine foldrM_eq (fun table : Array Nat => table.size = t.size) (fun table htable id hid => ?_) Array.size_replicate
  exact ⟨noteFootprint_eq h (h.lt_size_of_visible hid) htable, (Array.size_setIfInBounds).trans htable⟩

/-- Two nodes are compared by entries of the table. -/
theorem foldsBefore_eq {footprints : Array Nat} {a b : Node α} (ha : a.id < footprints.size) (hb : b.id < footprints.size) :
    foldsBefore footprints a b = some (Tree.foldsBefore footprints a b) := by
  rw [foldsBefore, then_eq (read_eq ha 0), then_eq (read_eq hb 0)]
  rfl

/-- The node to fold first, out of some whose footprints are noted. -/
theorem firstToFold_eq {footprints : Array Nat} {nodes : List (Node α)} {first : Node α}
    (hnodes : ∀ n ∈ nodes, n.id < footprints.size) (hfirst : first.id < footprints.size) :
    nodes.foldlM (fun best n => (foldsBefore footprints n best).map (fun before => if before then n else best)) first =
        some (nodes.foldl (fun best n => if Tree.foldsBefore footprints n best then n else best) first) ∧
      (nodes.foldl (fun best n => if Tree.foldsBefore footprints n best then n else best) first).id < footprints.size := by
  refine foldlM_eq (fun best : Node α => best.id < footprints.size) (fun best hbest n hn => ?_) hfirst
  refine ⟨by rw [foldsBefore_eq (hnodes n hn) hbest]; rfl, ?_⟩
  split
  · exact hnodes n hn
  · exact hbest

/-- Looking for a node to fold never fails, and a node that is found is there. -/
theorem collapseCandidate_eq (h : t.Spanning) :
    collapseCandidate t = some t.collapseCandidate? ∧ ∀ id, t.collapseCandidate? = some id → id < t.size := by
  obtain ⟨hfootprints, hsize⟩ := visibleFootprints_eq h
  have hunfolded : ∀ n ∈ t.unfolded, n.id < t.size := by
    intro n hn
    obtain ⟨i, -, hi⟩ := List.mem_filterMap.mp (List.mem_of_mem_filter hn)
    rw [h.ids i n hi]
    exact lt_size_iff.mpr ⟨n, hi⟩
  have hsame : (t.nodesAt t.visiblePreOrder).filter (fun n => !n.visibleChildren.isEmpty) = t.unfolded := rfl
  rw [collapseCandidate, then_eq hfootprints, then_eq (visibleNodes_eq h), hsame, collapseCandidate?]
  cases hnodes : t.unfolded with
  | nil => exact ⟨rfl, fun _ => nofun⟩
  | cons first rest =>
    rw [hnodes] at hunfolded
    obtain ⟨hloop, hbest⟩ := firstToFold_eq (fun n hn => hsize ▸ hunfolded n (List.mem_cons_of_mem first hn))
      (hsize ▸ hunfolded first List.mem_cons_self)
    dsimp only
    rw [then_eq hloop]
    exact ⟨rfl, fun id hid => Option.some.inj hid ▸ hsize ▸ hbest⟩

/-- Folding by itself never fails, however often it looks for a node. -/
theorem autoCollapse_eq (h : t.Spanning) (target iterations : Nat) :
    autoCollapse target iterations t = some (t.autoCollapse target iterations) := by
  induction iterations generalizing t with
  | zero => rfl
  | succ iterations ih =>
    rw [autoCollapse, Tree.autoCollapse]
    cases t.root with
    | none => rfl
    | some root =>
      obtain ⟨hcandidate, hinRange⟩ := collapseCandidate_eq h
      dsimp only
      rw [then_eq (footprint_eq h root)]
      split
      · rfl
      · rw [then_eq hcandidate]
        cases hid : t.collapseCandidate? with
        | none => rfl
        | some id =>
          have hlinks : Agrees Node.links t (t.setCollapsed id true) := Agrees.modify t id _ (fun _ => rfl)
          dsimp only
          rw [then_eq (setCollapsed_eq (hinRange id hid) true), then_eq (ih (h.of_agrees hlinks))]
          rfl

end

/-! ## The engine -/

variable {α : Type} [Quantity α]

/-- Lays a plan out. -/
def layout (e : Layout.Engine α) (p : Plan α) : Option (Layout.Engine α × Plan α × Diff α) := do
  let order ← visiblePreOrder p.tree
  let laid ← arrange e.config order p.tree
  let positions ← order.mapM (fun id => (laid.1.get? id).map (fun n => (id, n.position)))
  let visible := idSet order
  let diff : Diff α := {
    entered := visible.filter (fun id => !e.visible.contains id)
    exited := e.visible.filter (fun id => !visible.contains id)
    moved := positions.filterMap (fun now => do
      let start ← e.positions.lookup now.1
      if start != now.2 then some ⟨now.1, start, now.2⟩ else none) }
  return ({ e with state := .laid, visible, positions, stats := laid.2 },
    { p with tree := laid.1 }.advanceTo .layoutComplete, diff)

/-- Folds an oversized plan and lays it out; the footprint that is left is looked at once more. -/
def initialLayout (e : Layout.Engine α) (p : Plan α) : Option (Layout.Engine α × Plan α × Diff α) := do
  let folded ← autoCollapse e.config.autoCollapseTarget e.config.autoCollapseMaxIterations p.tree
  let _ ← folded.1.root.toList.mapM (footprint folded.1)
  layout (if folded.2.isEmpty then e else { e with state := .unlaid }) { p with tree := folded.1 }

/-- What an action does to the collapse flags. -/
def refold (t : Tree α) : Action → Option (Tree α)
  | .toggleCollapse id => update t id Engine.flip
  | .expandAll => some (t.map (fun n => { n with isCollapsed := false }))
  | .collapseAll => some (t.map (fun n => { n with isCollapsed := !n.isLeaf && some n.id != t.root }))
  | .expandPathTo id => (t.ancestors id).foldlM (fun t a => setCollapsed t a false) t

/-- A layout never fails. -/
theorem layout_eq (e : Layout.Engine α) {p : Plan α} (h : p.tree.Spanning) : layout e p = some (e.layout p) := by
  have hlaid := h.of_agrees ((arrange_agrees e.config p.tree).view Node.links (fun _ => rfl))
  have hfits := (fits_visiblePreOrder h).of_agrees ((arrange_agrees e.config p.tree).view Node.links (fun _ => rfl))
  have hpositions := mapM_node_eq (Engine.arrange e.config p.tree).1 p.tree.visiblePreOrder
    (fun id n => (id, n.position)) (fun n => (n.id, n.position)) (fun i hi => by
      obtain ⟨n, hn⟩ := lt_size_iff.mp (hfits.inRange i hi)
      exact ⟨n, hn, by rw [hlaid.ids i n hn]⟩)
  rw [layout, then_eq (visiblePreOrder_eq h), then_eq (arrange_eq e.config h), then_eq hpositions]
  rfl

/-- A first layout never fails. -/
theorem initialLayout_eq (e : Layout.Engine α) {p : Plan α} (h : p.tree.Spanning) :
    initialLayout e p = some (e.initialLayout p) := by
  have hfolded := h.of_agrees ((autoCollapse_agrees e.config.autoCollapseTarget e.config.autoCollapseMaxIterations p.tree).view
    Node.links (fun _ => rfl))
  rw [initialLayout, then_eq (autoCollapse_eq h _ _), then_eq (mapM_eq (fun id _ => footprint_eq hfolded id))]
  exact layout_eq _ (p := { p with tree := (p.tree.autoCollapse _ _).1 }) hfolded

/-- An action folds or opens nodes that are there, if its target is. -/
theorem refold_eq {α : Type} (t : Tree α) {a : Action} (ha : ∀ i, a.target? = some i → t.contains i = true) :
    refold t a = some (a.refold t) := by
  cases a with
  | toggleCollapse id => exact update_eq (of_decide_eq_true (ha id rfl)) _
  | expandAll => rfl
  | collapseAll => rfl
  | expandPathTo id =>
    refine (foldlM_eq (fun u : Tree α => u.size = t.size) (fun u hu i hi => ?_) rfl).1
    exact ⟨setCollapsed_eq (hu ▸ lt_size_iff.mpr (exists_node_of_mem_ancestors hi)) false, (size_modify _ _ _).trans hu⟩

/-! ## The controller -/

/-- A controller with the first layout of a plan. -/
def new (p : Plan α) (config : LayoutConfig α) : Option (Controller α × Diff α) :=
  (initialLayout (Engine.new config) p).map Controller.ofRun

/-- An action on a node that is not there is refused before anything is done. -/
def apply (c : Controller α) (a : Action) : Option (Controller α × Except (Error α) (Diff α)) :=
  match a.target?.filter (fun id => !c.plan.tree.contains id) with
  | some id => some (c, .error (.unknownNode id))
  | none => do
    let t ← refold c.plan.tree a
    let run ← layout c.engine { c.plan with tree := t }
    return ((Controller.ofRun run).1, .ok (Controller.ofRun run).2)

/-- Takes over another plan and lays it out. -/
def replacePlan (c : Controller α) (p : Plan α) : Option (Controller α × Diff α) :=
  (new p c.engine.config).map (fun started => (started.1, { started.2 with exited := c.engine.visible }))

/-- A controller is always made. -/
theorem new_eq {p : Plan α} (h : p.tree.Spanning) (config : LayoutConfig α) : new p config = some (Controller.new p config) := by
  rw [new, initialLayout_eq _ h]
  rfl

/-- No action fails in any other way than by an unknown node. -/
theorem apply_eq {c : Controller α} (h : c.plan.tree.Spanning) (a : Action) : apply c a = some (c.apply a) := by
  unfold apply
  cases htarget : a.target?.filter (fun id => !c.plan.tree.contains id) with
  | some id =>
    obtain ⟨htarget, hunknown⟩ := Option.filter_eq_some_iff.mp htarget
    rw [apply_unknown c htarget (by simpa using hunknown)]
  | none =>
    have hknown : ∀ i, a.target? = some i → c.plan.tree.contains i = true := by
      intro i hi
      rw [hi] at htarget
      simpa using htarget
    have hlinks : Agrees Node.links c.plan.tree (a.refold c.plan.tree) :=
      (a.refold_agrees c.plan.tree).view Node.links (fun _ => rfl)
    have hlayout := layout_eq c.engine (p := { c.plan with tree := a.refold c.plan.tree }) (h.of_agrees hlinks)
    dsimp only
    rw [then_eq (refold_eq c.plan.tree hknown), then_eq hlayout, apply_known c hknown]
    rfl

/-- Taking over a plan never fails. -/
theorem replacePlan_eq (c : Controller α) {p : Plan α} (h : p.tree.Spanning) : replacePlan c p = some (c.replacePlan p) := by
  rw [replacePlan, new_eq h]
  rfl

end DaxPlan.Strict
