import DaxPlan.Layout.Controller
import DaxPlan.Proofs.Layout.Frame
import DaxPlan.Proofs.Outline.TextualOrder
import Mathlib.Data.Finset.Basic

/-!
# Following a controller by its answers

A renderer that knows nothing but the answers of a controller, and takes over each of them, shows what is visible of the current
plan at any time (`run_shows_visible`). The engine answers from what it remembers of its last layout, and no answer but a
layout's changes what is visible or where it is; so what it remembers is always true of the plan (`Engine.Remembers`). A plan that
takes the place of another starts with an engine that remembers nothing, and ids that the two plans share cannot be confused.
-/

namespace DaxPlan.Layout

open DaxPlan.Tree

/-! ## What a diff tells -/

section Diffs

variable {α : Type} {d : Diff α} {t t' : Tree α} {before after : List NodeId}

/-- A renderer takes the changes over: what has exited goes, and what has entered comes. -/
def Diff.update (d : Diff α) (shown : Finset NodeId) : Finset NodeId := (shown \ d.exited.toFinset) ∪ d.entered.toFinset

/-- The nodes visible in both trees that have moved from the one to the other, in the order of the visible walk. -/
def movesBetween [Quantity α] (t t' : Tree α) : List (Move α) :=
  t'.visiblePreOrder.filterMap (fun id =>
    match (t.get? id).map Node.position, (t'.get? id).map Node.position with
    | some start, some finish => if t.visiblePreOrder.contains id && start != finish then some ⟨id, start, finish⟩ else none
    | _, _ => none)

/-- A diff tells what has become visible, what has been hidden, and what has moved from one tree to another. -/
structure Diff.Tells [Quantity α] (d : Diff α) (t t' : Tree α) : Prop where
  entered_sorted : d.entered.Pairwise (· < ·)
  exited_sorted : d.exited.Pairwise (· < ·)
  entered : ∀ i, i ∈ d.entered ↔ i ∈ t'.visiblePreOrder ∧ i ∉ t.visiblePreOrder
  exited : ∀ i, i ∈ d.exited ↔ i ∈ t.visiblePreOrder ∧ i ∉ t'.visiblePreOrder
  moved : d.moved = movesBetween t t'

/-- A diff clears away all that was visible and brings in all that is. -/
structure Diff.Renews (d : Diff α) (before after : List NodeId) : Prop where
  entered_sorted : d.entered.Pairwise (· < ·)
  exited_sorted : d.exited.Pairwise (· < ·)
  entered : ∀ i, i ∈ d.entered ↔ i ∈ after
  exited : ∀ i, i ∈ d.exited ↔ i ∈ before
  moved : d.moved = []

theorem Diff.Tells.update_eq [Quantity α] (h : d.Tells t t') :
    d.update t.visiblePreOrder.toFinset = t'.visiblePreOrder.toFinset := by
  ext i
  simp only [Diff.update, Finset.mem_union, Finset.mem_sdiff, List.mem_toFinset, h.entered, h.exited]
  tauto

theorem Diff.Renews.update_eq (h : d.Renews before after) : d.update before.toFinset = after.toFinset := by
  ext i
  simp only [Diff.update, Finset.mem_union, Finset.mem_sdiff, List.mem_toFinset, h.entered, h.exited]
  tauto

end Diffs

variable {α : Type} [Quantity α] {t t' : Tree α} {e : Engine α} {c : Controller α} {i : NodeId}

/-! ## What the engine remembers -/

/-- What an engine remembers is true of a tree. -/
structure Engine.Remembers (e : Engine α) (t : Tree α) : Prop where
  visible : e.visible = idSet t.visiblePreOrder
  positions : e.positions = Engine.positionsOf t t.visiblePreOrder

/-- The position remembered for a node is the one it has, if it is among those remembered. -/
theorem lookup_positionsOf {α : Type} {t : Tree α} (h : ∀ i n, t.get? i = some n → n.id = i) (order : List NodeId)
    (id : NodeId) : (Engine.positionsOf t order).lookup id = if order.contains id then (t.get? id).map Node.position else none := by
  induction order with
  | nil => rfl
  | cons i order ih =>
    unfold Engine.positionsOf nodesAt at ih ⊢
    rw [List.filterMap_cons, List.contains_cons]
    by_cases hid : id = i
    · subst hid
      cases hn : t.get? id with
      | none =>
        rw [hn] at ih
        simp only [ih, Option.map_none, ite_self]
      | some n =>
        simp [h id n hn]
    · have hne : (id == i) = false := beq_eq_false_iff_ne.mpr hid
      rw [hne, Bool.false_or, ← ih]
      cases hn : t.get? i with
      | none => rfl
      | some n =>
        simp only [List.map_cons]
        rw [List.lookup_cons, h i n hn, hne]

/-- The changes from what an engine remembers are those between the trees. -/
theorem Engine.Remembers.changes_tells (h : e.Remembers t) (hs : t.Spanning) (hs' : t'.Spanning) :
    (e.changes t' t'.visiblePreOrder).Tells t t' := by
  refine ⟨?_, ?_, fun i => ?_, fun i => ?_, ?_⟩
  · exact (pairwise_lt_idSet _).filter _
  · rw [Engine.changes, h.visible]
    exact (pairwise_lt_idSet _).filter _
  · simp [Engine.changes, h.visible, mem_idSet]
  · simp [Engine.changes, h.visible, mem_idSet]
  · rw [Engine.changes, h.positions, movesBetween]
    simp only [lookup_positionsOf hs.ids]
    unfold Engine.positionsOf nodesAt
    rw [List.filterMap_map, List.filterMap_filterMap]
    refine List.filterMap_congr (fun i hi => ?_)
    obtain ⟨n, hn, hni⟩ := hs'.visible_node hi
    simp only [hn, Function.comp_def, Option.bind_some, Option.map_some, hni]
    cases t.visiblePreOrder.contains i <;> cases t.get? i <;> simp

/-- An engine that remembers nothing lets all that is visible enter. -/
theorem changes_of_nothing (hvisible : e.visible = []) (hpositions : e.positions = []) (order : List NodeId) :
    (e.changes t order).Renews [] order := by
  refine ⟨(pairwise_lt_idSet order).filter _, ?_, fun i => ?_, fun i => ?_, ?_⟩
  · rw [Engine.changes, hvisible]
    exact List.Pairwise.nil
  · simp [Engine.changes, hvisible, mem_idSet]
  · simp [Engine.changes, hvisible]
  · simp [Engine.changes, hpositions]

/-! ## The layout -/

theorem visiblePreOrder_layout (e : Engine α) (p : Plan α) :
    (e.layout p).2.1.tree.visiblePreOrder = p.tree.visiblePreOrder := by
  rw [tree_layout]
  exact visiblePreOrder_congr ((arrange_agrees e.config p.tree).view Node.visibleChildren (fun _ => rfl))

/-- After a layout the engine remembers the tree that it has laid out. -/
theorem layout_remembers (e : Engine α) (p : Plan α) : (e.layout p).1.Remembers (e.layout p).2.1.tree := by
  constructor
  · rw [visiblePreOrder_layout]
    rfl
  · rw [visiblePreOrder_layout, tree_layout]
    rfl

theorem diff_layout (e : Engine α) (p : Plan α) :
    (e.layout p).2.2 = e.changes (e.layout p).2.1.tree (e.layout p).2.1.tree.visiblePreOrder := by
  rw [visiblePreOrder_layout, tree_layout]
  rfl

theorem layout_agrees (e : Engine α) (p : Plan α) : Agrees Node.fixed p.tree (e.layout p).2.1.tree := by
  rw [tree_layout]
  exact (arrange_agrees e.config p.tree).view (fun n => { n with isCollapsed := false }) (fun _ => rfl)

/-! ## Actions -/

/-- The node that an action is on. -/
def Action.target? : Action → Option NodeId
  | .toggleCollapse id => some id
  | .expandAll => none
  | .collapseAll => none
  | .expandPathTo id => some id

/-- What an action does to the collapse flags. -/
def Action.refold (a : Action) (t : Tree α) : Tree α :=
  match a with
  | .toggleCollapse id => t.modify id Engine.flip
  | .expandAll => t.map (fun n => { n with isCollapsed := false })
  | .collapseAll => t.map (fun n => { n with isCollapsed := !n.isLeaf && some n.id != t.root })
  | .expandPathTo id => (t.ancestors id).foldl (fun t a => t.setCollapsed a false) t

theorem Action.refold_agrees {α : Type} (a : Action) (t : Tree α) : Agrees Node.unflagged t (a.refold t) := by
  cases a with
  | toggleCollapse id =>
    refine Agrees.modify t id _ (fun n => ?_)
    unfold Engine.flip
    split <;> rfl
  | expandAll => exact Agrees.map t _ (fun _ => rfl)
  | collapseAll => exact Agrees.map t _ (fun _ => rfl)
  | expandPathTo id => exact Agrees.foldl _ (fun t a => setCollapsed_agrees t a false) _ t

/-- An action on a node that is not there is refused, and nothing changes. -/
theorem apply_unknown (c : Controller α) {a : Action} (ha : a.target? = some i) (hi : c.plan.tree.contains i = false) :
    c.apply a = (c, .error (.unknownNode i)) := by
  have hcontains : ¬c.plan.tree.contains i = true := by simp [hi]
  cases a with
  | toggleCollapse j =>
    obtain rfl := Option.some.inj ha
    rw [Controller.apply, Engine.toggleCollapse, if_neg hcontains, Controller.ofRun]
  | expandAll => cases ha
  | collapseAll => cases ha
  | expandPathTo j =>
    obtain rfl := Option.some.inj ha
    rw [Controller.apply, Engine.expandPathTo, if_neg hcontains, Controller.ofRun]

/-- Any other action changes collapse flags and lays the plan out. -/
theorem apply_known (c : Controller α) {a : Action} (ha : ∀ i, a.target? = some i → c.plan.tree.contains i = true) :
    c.apply a = (Controller.ofRun (c.engine.layout (c.plan.mapTree a.refold))).map id .ok := by
  cases a with
  | toggleCollapse i =>
    rw [Controller.apply, Engine.toggleCollapse, if_pos (ha i rfl)]
    rfl
  | expandAll => rfl
  | collapseAll => rfl
  | expandPathTo i =>
    rw [Controller.apply, Engine.expandPathTo, if_pos (ha i rfl)]
    rfl

/-- The first layout of a plan, with nodes folded until it fits. -/
theorem new_spec (plan : Plan α) (config : LayoutConfig α) :
    Agrees Node.fixed plan.tree (Controller.new plan config).1.plan.tree ∧
      (Controller.new plan config).1.engine.Remembers (Controller.new plan config).1.plan.tree ∧
      (Controller.new plan config).2.Renews [] (Controller.new plan config).1.plan.tree.visiblePreOrder := by
  have hfold := (autoCollapse_agrees config.autoCollapseTarget config.autoCollapseMaxIterations plan.tree).view Node.bare
    (g := Node.fixed) (fun _ => rfl)
  generalize hr : (Engine.new config).autoCollapse plan = r
  have hplan : r.2.1.tree = (plan.tree.autoCollapse config.autoCollapseTarget config.autoCollapseMaxIterations).1 := by
    rw [← hr]
    rfl
  have hengine : r.1.visible = [] ∧ r.1.positions = [] := by
    rw [← hr]
    simp only [Engine.autoCollapse]
    split <;> exact ⟨rfl, rfl⟩
  have hnew : Controller.new plan config = Controller.ofRun (r.1.layout r.2.1) := by
    rw [← hr]
    rfl
  rw [hnew, Controller.ofRun]
  refine ⟨?_, layout_remembers r.1 r.2.1, ?_⟩
  · rw [← hplan] at hfold
    exact hfold.trans (layout_agrees r.1 r.2.1)
  · rw [diff_layout]
    exact changes_of_nothing hengine.1 hengine.2 _

/-- A plan in the place of another starts afresh, and all of the other exits. -/
theorem replacePlan_spec (h : c.engine.Remembers c.plan.tree) (plan : Plan α) :
    Agrees Node.fixed plan.tree (c.replacePlan plan).1.plan.tree ∧
      (c.replacePlan plan).1.engine.Remembers (c.replacePlan plan).1.plan.tree ∧
      (c.replacePlan plan).2.Renews c.plan.tree.visiblePreOrder (c.replacePlan plan).1.plan.tree.visiblePreOrder := by
  obtain ⟨hagrees, hremembers, hrenews⟩ := new_spec plan c.engine.config
  refine ⟨hagrees, hremembers, hrenews.entered_sorted, ?_, hrenews.entered, fun i => ?_, hrenews.moved⟩
  · rw [Controller.replacePlan, h.visible]
    exact pairwise_lt_idSet _
  · rw [Controller.replacePlan, h.visible]
    exact mem_idSet

/-! ## Runs -/

/-- The links make a plan's tree a tree, and lead back from each node to its parent. -/
structure Proper (p : Plan α) : Prop where
  spanning : p.tree.Spanning
  linked : p.tree.Linked

theorem Proper.of_agrees {p p' : Plan α} (h : Proper p) (ha : Agrees Node.fixed p.tree p'.tree) : Proper p' := by
  have hlinks : Agrees Node.links p.tree p'.tree := ha.view Node.links (fun _ => rfl)
  exact ⟨h.spanning.of_agrees hlinks, h.linked.of_agrees hlinks⟩

/-- What a controller is asked for. -/
inductive Request (α : Type) where
  | act (a : Action)
  | replace (p : Plan α)

/-- A controller, and what a renderer shows that follows it. -/
structure Replay (α : Type) where
  controller : Controller α
  shown : Finset NodeId

namespace Replay

/-- What is visible of the current plan. -/
def visible (s : Replay α) : List NodeId := s.controller.plan.tree.visiblePreOrder

/-- A renderer that shows nothing yet takes over the first layout. -/
def start (plan : Plan α) (config : LayoutConfig α) : Replay α :=
  let (controller, diff) := Controller.new plan config
  ⟨controller, diff.update ∅⟩

/-- A request is made, and the renderer takes over the answer, unless it is a refusal. -/
def step (s : Replay α) : Request α → Replay α
  | .act a =>
    match s.controller.apply a with
    | (controller, .ok diff) => ⟨controller, diff.update s.shown⟩
    | (controller, .error _) => ⟨controller, s.shown⟩
  | .replace plan =>
    let (controller, diff) := s.controller.replacePlan plan
    ⟨controller, diff.update s.shown⟩

/-- One request after the other is made. -/
def run (plan : Plan α) (config : LayoutConfig α) (requests : List (Request α)) : Replay α :=
  requests.foldl step (start plan config)

/-- The renderer shows what is visible, and the engine remembers it. -/
structure InStep (s : Replay α) : Prop where
  proper : Proper s.controller.plan
  remembers : s.controller.engine.Remembers s.controller.plan.tree
  shown : s.shown = s.visible.toFinset

theorem InStep.start {plan : Plan α} (h : Proper plan) (config : LayoutConfig α) : (Replay.start plan config).InStep := by
  obtain ⟨hagrees, hremembers, hrenews⟩ := new_spec plan config
  exact ⟨h.of_agrees hagrees, hremembers, hrenews.update_eq⟩

/-- An action that is not refused leaves a controller that remembers its plan, and tells what has changed. -/
theorem InStep.apply {s : Replay α} (h : s.InStep) {a : Action}
    (ha : ∀ i, a.target? = some i → s.controller.plan.tree.contains i = true) :
    ∃ c d, s.controller.apply a = (c, .ok d) ∧ d.Tells s.controller.plan.tree c.plan.tree ∧
      Agrees Node.fixed s.controller.plan.tree c.plan.tree ∧ c.engine.Remembers c.plan.tree := by
  rw [apply_known s.controller ha]
  have hagrees : Agrees Node.fixed s.controller.plan.tree
      (s.controller.engine.layout (s.controller.plan.mapTree a.refold)).2.1.tree :=
    ((a.refold_agrees _).view Node.bare (fun _ => rfl)).trans (layout_agrees _ _)
  refine ⟨_, _, rfl, ?_, hagrees, layout_remembers _ _⟩
  rw [diff_layout]
  exact h.remembers.changes_tells h.proper.spanning (h.proper.of_agrees hagrees).spanning

/-- An action is refused because of a node that is not there, and then nothing changes, or it is answered. -/
theorem InStep.act {s : Replay α} (h : s.InStep) (a : Action) :
    (∃ i, a.target? = some i ∧ s.controller.plan.tree.contains i = false ∧
      s.controller.apply a = (s.controller, .error (.unknownNode i)) ∧ s.step (.act a) = s) ∨
    (∀ i, a.target? = some i → s.controller.plan.tree.contains i = true) ∧
      ∃ d, s.controller.apply a = ((s.step (.act a)).controller, .ok d) ∧
        d.Tells s.controller.plan.tree (s.step (.act a)).controller.plan.tree ∧ (s.step (.act a)).InStep := by
  by_cases ha : ∀ i, a.target? = some i → s.controller.plan.tree.contains i = true
  · obtain ⟨c, d, happly, htells, hagrees, hremembers⟩ := h.apply ha
    have hstep : s.step (.act a) = ⟨c, d.update s.shown⟩ := by
      rw [step, happly]
    rw [hstep]
    refine Or.inr ⟨ha, d, happly, htells, h.proper.of_agrees hagrees, hremembers, ?_⟩
    rw [h.shown]
    exact htells.update_eq
  · simp only [not_forall, Bool.not_eq_true] at ha
    obtain ⟨i, htarget, hi⟩ := ha
    have happly := apply_unknown s.controller htarget hi
    refine Or.inl ⟨i, htarget, hi, happly, ?_⟩
    rw [step, happly]

theorem InStep.step {s : Replay α} (h : s.InStep) {r : Request α} (hr : ∀ p, r = .replace p → Proper p) :
    (s.step r).InStep := by
  cases r with
  | act a =>
    rcases h.act a with ⟨i, -, -, -, hsame⟩ | ⟨-, d, -, -, hnext⟩
    · rw [hsame]
      exact h
    · exact hnext
  | replace plan =>
    obtain ⟨hagrees, hremembers, hrenews⟩ := replacePlan_spec h.remembers plan
    refine ⟨(hr plan rfl).of_agrees hagrees, hremembers, ?_⟩
    rw [Replay.step, h.shown]
    exact hrenews.update_eq

/-- Whatever is asked, the renderer stays in step. -/
theorem InStep.run {plan : Plan α} (h : Proper plan) (config : LayoutConfig α) (requests : List (Request α))
    (hrequests : ∀ p, .replace p ∈ requests → Proper p) : (Replay.run plan config requests).InStep := by
  induction requests using List.reverseRecOn with
  | nil => exact InStep.start h config
  | append_singleton requests r ih =>
    rw [Replay.run, List.foldl_append]
    refine InStep.step (ih (fun p hp => hrequests p (List.mem_append_left _ hp))) (fun p hp => ?_)
    exact hrequests p (List.mem_append_right _ (List.mem_singleton.mpr hp.symm))

end Replay

/-- A renderer that starts empty and takes over every answer shows what is visible of the current plan, whatever is asked of the
controller. All of the first plan enters. An action on a node that is not there is refused and changes nothing; any other is
answered with the nodes that became visible or hidden, each once and by id, and with those that moved. Another plan enters as a
whole, and the old one exits as a whole. -/
theorem run_shows_visible (plan : Plan α) (config : LayoutConfig α) (requests : List (Request α)) (hplan : Proper plan)
    (hrequests : ∀ p, .replace p ∈ requests → Proper p) :
    let first := Controller.new plan config
    let s := Replay.run plan config requests
    first.2.Renews [] first.1.plan.tree.visiblePreOrder ∧
    s.shown = s.visible.toFinset ∧
    (∀ a,
      (∃ i, a.target? = some i ∧ s.controller.plan.tree.contains i = false ∧
        s.controller.apply a = (s.controller, .error (.unknownNode i)) ∧ s.step (.act a) = s) ∨
      (∀ i, a.target? = some i → s.controller.plan.tree.contains i = true) ∧
        ∃ d, s.controller.apply a = ((s.step (.act a)).controller, .ok d) ∧
          d.Tells s.controller.plan.tree (s.step (.act a)).controller.plan.tree) ∧
    ∀ p, let next := s.controller.replacePlan p
      Agrees Node.fixed p.tree next.1.plan.tree ∧ next.2.Renews s.visible next.1.plan.tree.visiblePreOrder := by
  intro first s
  have h : s.InStep := Replay.InStep.run hplan config requests hrequests
  refine ⟨(new_spec plan config).2.2, h.shown, fun a => ?_, fun p => ?_⟩
  · rcases h.act a with hrefused | ⟨hknown, d, happly, htells, -⟩
    · exact Or.inl hrefused
    · exact Or.inr ⟨hknown, d, happly, htells⟩
  · obtain ⟨hagrees, -, hrenews⟩ := replacePlan_spec h.remembers p
    exact ⟨hagrees, hrenews⟩

/-- A node is folded, one that is not there is asked for, and a plan of two rows takes the place of one of three. -/
theorem run_shows_visible_rows :
    let row (level : Nat) : Row := ⟨1, level, "", "", .unknown, none, none⟩
    let plan (levels : List Nat) : Plan Rat := Plan.parsed .physical "" (Tree.ofRows (levels.map row))
    let s := Replay.run (plan [0, 1, 1]) LayoutConfig.standard
      [.act (.toggleCollapse 0), .act (.expandPathTo 7), .replace (plan [0, 1]), .act .collapseAll]
    Proper (plan [0, 1, 1]) ∧ Proper (plan [0, 1]) ∧ s.shown = s.visible.toFinset := by
  intro row plan s
  have hproper : ∀ levels, Proper (plan levels) := by
    intro levels
    have h : (Tree.ofRows (levels.map row) : Tree Rat).WellFormed := Outline.ofRows_wellFormed _
    exact ⟨h.toSpanning, h.linked⟩
  refine ⟨hproper _, hproper _, ?_⟩
  refine (run_shows_visible (plan [0, 1, 1]) LayoutConfig.standard _ (hproper _) (fun p hp => ?_)).2.1
  have hp' : p = plan [0, 1] := by simpa using hp
  rw [hp']
  exact hproper _

end DaxPlan.Layout
