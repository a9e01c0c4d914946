import DaxPlan.Proofs.Layout.History
import DaxPlan.Proofs.Enrichment.Passes

/-!
# What layouts leave alone

A layout goes through the plan and changes nodes in place, one after the other. Each of these changes is on a visible node, and
writes its geometry and nothing else (`arrange_rearranged`): from a visible node the shift of a subtree comes to visible nodes
only. So nodes that are hidden stay as they are, and so do sizes above zero. The actions change collapse flags besides, each those
it is about (`refold_flag`). Whatever is done with a plan, all else is as it was when the plan was taken over
(`operations_keep_plan`).
-/

namespace DaxPlan.Layout

open DaxPlan.Tree

variable {α : Type} [Quantity α] {t u v : Tree α} {order ids : List NodeId} {i id : NodeId} {config : LayoutConfig α}
  {c : Controller α}

/-! ## Changes of visible nodes -/

/-- A change of a node that writes its geometry alone, and no size above zero. -/
structure Rearranging (g : Node α → Node α) : Prop where
  bare : ∀ n, (g n).bare = n.bare
  width : ∀ n, Quantity.le n.width Quantity.zero = false → (g n).width = n.width
  height : ∀ n, Quantity.le n.height Quantity.zero = false → (g n).height = n.height

/-- Nodes of a list are changed one after the other, each in its geometry alone. -/
inductive Rearranged (order : List NodeId) (t : Tree α) : Tree α → Prop where
  | refl : Rearranged order t t
  | change {u : Tree α} {id : NodeId} {g : Node α → Node α} :
      Rearranged order t u → id ∈ order → Rearranging g → Rearranged order t (u.modify id g)

/-- The nodes of a list show no children but those in the list. -/
def ShowsWithin (order : List NodeId) (t : Tree α) : Prop := ∀ i ∈ order, ∀ c ∈ visibleChildren t i, c ∈ order

/-- A change that leaves sizes alone rearranges. -/
theorem Rearranging.of_unsized {g : Node α → Node α} (hbare : ∀ n, (g n).bare = n.bare)
    (hsize : ∀ n, (g n).width = n.width ∧ (g n).height = n.height) : Rearranging g :=
  ⟨hbare, fun n _ => (hsize n).1, fun n _ => (hsize n).2⟩

/-- Giving a node the default size rearranges: a size above zero is kept. -/
theorem rearranging_applyDefaultSize (config : LayoutConfig α) : Rearranging (applyDefaultSize config) := by
  refine ⟨fun n => rfl, fun n hn => ?_, fun n hn => ?_⟩
  · simp [applyDefaultSize, hn]
  · simp [applyDefaultSize, hn]

namespace Rearranged

/-- A rearranged tree has the same nodes but for their places and sizes. -/
theorem agrees (h : Rearranged order t u) : Agrees Node.bare t u := by
  induction h with
  | refl => exact Agrees.refl _ t
  | change _ _ hg ih => exact ih.trans (Agrees.modify _ _ _ hg.bare)

/-- Nodes that are not in the list stay as they are. -/
theorem outside (h : Rearranged order t u) (hi : i ∉ order) : u.get? i = t.get? i := by
  induction h with
  | refl => rfl
  | change _ hid _ ih =>
    rw [get?_modify, if_neg (fun e : _ = i => hi (e ▸ hid)), ih]

/-- A size above zero stays as it is. -/
theorem sizes (h : Rearranged order t u) {n : Node α} (hn : t.get? i = some n) :
    ∃ m, u.get? i = some m ∧ (Quantity.le n.width Quantity.zero = false → m.width = n.width) ∧
      (Quantity.le n.height Quantity.zero = false → m.height = n.height) := by
  induction h with
  | refl => exact ⟨n, hn, fun _ => rfl, fun _ => rfl⟩
  | @change u id g _ _ hg ih =>
    obtain ⟨m, hm, hwidth, hheight⟩ := ih
    rw [get?_modify, hm]
    by_cases hid : id = i
    · rw [if_pos hid]
      refine ⟨g m, rfl, fun hpos => ?_, fun hpos => ?_⟩
      · rw [hg.width m (by rw [hwidth hpos]; exact hpos), hwidth hpos]
      · rw [hg.height m (by rw [hheight hpos]; exact hpos), hheight hpos]
    · rw [if_neg hid]
      exact ⟨m, rfl, hwidth, hheight⟩

/-- Steps that rearrange a tree do so one after the other. -/
theorem foldl {ι : Type} {step : Tree α → ι → Tree α} (xs : List ι)
    (hstep : ∀ u, Rearranged order t u → ∀ x ∈ xs, Rearranged order t (step u x)) (h : Rearranged order t u) :
    Rearranged order t (xs.foldl step u) := by
  induction xs generalizing u with
  | nil => exact h
  | cons x xs ih =>
    refine ih (fun u hu y hy => hstep u hu y (List.mem_cons_of_mem x hy)) ?_
    exact hstep u h x List.mem_cons_self

/-- Steps that rearrange a tree do so one after the other, from the last on. -/
theorem foldr {ι : Type} {step : ι → Tree α → Tree α} (xs : List ι)
    (hstep : ∀ u, Rearranged order t u → ∀ x ∈ xs, Rearranged order t (step x u)) (h : Rearranged order t u) :
    Rearranged order t (xs.foldr step u) := by
  rw [← List.foldl_reverse]
  exact foldl xs.reverse (fun u hu x hx => hstep u hu x (List.mem_reverse.mp hx)) h

/-! ## The passes -/

/-- Default sizes rearrange the nodes that get them. -/
theorem applyDefaultSizes (h : Rearranged order t u) (config : LayoutConfig α) :
    Rearranged order t (Layout.applyDefaultSizes config order u) :=
  h.foldl order (fun _ hu _ hid => hu.change hid (rearranging_applyDefaultSize config))

/-- Putting a node at its place rearranges it. -/
theorem placeNode (h : Rearranged order t u) (hid : id ∈ order) (config : LayoutConfig α) (widths places : Table α) :
    Rearranged order t (Layout.placeNode config widths places id u) := by
  unfold Layout.placeNode
  split
  · exact h
  · exact h.change hid (.of_unsized (fun _ => rfl) (fun _ => ⟨rfl, rfl⟩))

/-- The first placement rearranges what is placed. -/
theorem place (h : Rearranged order t u) (config : LayoutConfig α) : Rearranged order t (Layout.place config order u) :=
  h.foldr order (fun _ hu _ hid => hu.placeNode hid config _ _)

/-- A visible subtree stays in the list that its top is in. -/
theorem mem_of_mem_visibleSubtree (h : Rearranged order t u) (hshows : ShowsWithin order t) {j : NodeId} (hi : i ∈ order)
    (hj : j ∈ u.visibleSubtree i) : j ∈ order := by
  rw [visibleSubtree_congr (h.agrees.view Node.visibleChildren (fun _ => rfl)), visibleSubtree] at hj
  generalize t.size = d at hj
  induction d generalizing i with
  | zero => exact absurd hj List.not_mem_nil
  | succ d ih =>
    rw [walkFrom] at hj
    cases hn : t.get? i with
    | none =>
      rw [hn] at hj
      exact absurd hj List.not_mem_nil
    | some n =>
      rw [hn] at hj
      rcases List.mem_cons.mp hj with rfl | hj
      · exact hi
      · obtain ⟨k, hk, hjk⟩ := List.mem_flatMap.mp hj
        exact ih (hshows i hi k (by rw [visibleChildren_eq hn]; exact hk)) hjk

/-- A shift rearranges what is visible below the node that is shifted. -/
theorem shiftSubtree (h : Rearranged order t u) (hshows : ShowsWithin order t) (hid : id ∈ order) (dx : α) :
    Rearranged order t (Layout.shiftSubtree u id dx) := by
  unfold Layout.shiftSubtree
  refine h.foldl _ (fun v hv j hj => ?_)
  exact hv.change (h.mem_of_mem_visibleSubtree hshows hid hj) (.of_unsized (fun _ => rfl) (fun _ => ⟨rfl, rfl⟩))

/-- A sweep along a level rearranges what is visible below its nodes. -/
theorem sweepLevel (h : Rearranged order t u) (hshows : ShowsWithin order t) (hids : ∀ i ∈ ids, i ∈ order) (shifts : Nat) :
    Rearranged order t (Layout.sweepLevel config ids (u, shifts)).1 := by
  induction ids generalizing u shifts with
  | nil => exact h
  | cons left ids ih =>
    cases ids with
    | nil => exact h
    | cons right rest =>
      have hrest : ∀ i ∈ right :: rest, i ∈ order := fun i hi => hids i (List.mem_cons_of_mem _ hi)
      simp only [Layout.sweepLevel]
      split
      · exact ih (h.shiftSubtree hshows (hrest right List.mem_cons_self) _) hrest _
      · exact ih h hrest _

/-- A sweep rearranges what is visible below the nodes of its levels. -/
theorem sweep {levels : List (List NodeId)} (h : Rearranged order t u) (hshows : ShowsWithin order t)
    (hlevels : ∀ ids ∈ levels, ∀ i ∈ ids, i ∈ order) : Rearranged order t (sweep config levels u).1 := by
  unfold Layout.sweep
  generalize (0 : Nat) = shifts
  induction levels generalizing u shifts with
  | nil => exact h
  | cons ids levels ih =>
    refine ih (u := (sweepNext config (u, shifts) ids).1) ?_ (fun ids' hids' => hlevels ids' (List.mem_cons_of_mem _ hids')) _
    refine h.sweepLevel hshows (fun i hi => ?_) shifts
    exact hlevels ids List.mem_cons_self i (List.mem_mergeSort.mp hi)

/-- Centring a node rearranges it. -/
theorem recenterNode (h : Rearranged order t u) (hid : id ∈ order) : Rearranged order t (Layout.recenterNode u id) := by
  unfold Layout.recenterNode
  split
  · exact h
  · exact h.change hid (.of_unsized (fun _ => rfl) (fun _ => ⟨rfl, rfl⟩))

/-- Centring rearranges the nodes of the levels. -/
theorem recenter {levels : List (List NodeId)} (h : Rearranged order t u)
    (hlevels : ∀ ids ∈ levels, ∀ i ∈ ids, i ∈ order) : Rearranged order t (recenter levels u) := by
  unfold Layout.recenter
  refine h.foldl _ (fun v hv ids hids => hv.foldl ids (fun w hw i hi => hw.recenterNode ?_))
  exact hlevels ids (List.mem_reverse.mp hids) i hi

/-- Rounds of sweeping and centring rearrange what is visible below the nodes of the levels. -/
theorem resolveRounds {levels : List (List NodeId)} (h : Rearranged order t u) (hshows : ShowsWithin order t)
    (hlevels : ∀ ids ∈ levels, ∀ i ∈ ids, i ∈ order) (more : Nat) (stats : Stats) :
    Rearranged order t (resolveRounds config levels more u stats).1 := by
  induction more generalizing u stats with
  | zero =>
    rw [Layout.resolveRounds]
    dsimp only
    split <;> exact h.sweep hshows hlevels
  | succ more ih =>
    rw [Layout.resolveRounds]
    dsimp only
    split
    · exact h.sweep hshows hlevels
    · exact ih ((h.sweep hshows hlevels).recenter hlevels) _

end Rearranged

/-- What visible nodes show is visible. -/
theorem showsWithin_visiblePreOrder {α : Type} {t : Tree α} (h : t.Spanning) : ShowsWithin t.visiblePreOrder t := by
  intro i hi c hc
  obtain ⟨a, b, hab⟩ := List.append_of_mem hi
  have hcb := childrenFollow_visiblePreOrder h a i b hab c hc
  simp [hab, hcb]

/-- A layout changes visible nodes, in their geometry alone. -/
theorem arrange_rearranged (config : LayoutConfig α) (h : t.Spanning) :
    Rearranged t.visiblePreOrder t (Engine.arrange config t).1 := by
  have hshows := showsWithin_visiblePreOrder h
  have hids : ∀ i ∈ t.visiblePreOrder, ∃ n, t.get? i = some n ∧ n.id = i := fun i hi => h.visible_node hi
  unfold Engine.arrange resolveOverlaps
  dsimp only
  generalize t.visiblePreOrder = order at hshows hids
  have hplaced : Rearranged order t (place config order (applyDefaultSizes config order t)) :=
    (Rearranged.refl.applyDefaultSizes config).place config
  refine hplaced.resolveRounds hshows (fun ids hmem i hi => ?_) _ _
  refine mem_order_of_mem_levels (fun i hi => ?_) hmem hi
  obtain ⟨n, hn, hni⟩ := hids i hi
  obtain ⟨m, hm, he⟩ := hplaced.agrees.get? hn
  exact ⟨m, hm, (congrArg Node.id he).trans hni⟩

/-! ## Collapse flags -/

/-- The collapse flag that an action leaves a node with: one node is flipped if it has children, all are unfolded, all with
children but the root are folded, or those above a node are unfolded. -/
def Action.flag {α : Type} (t : Tree α) (i : NodeId) (n : Node α) : Action → Bool
  | .toggleCollapse id => if i = id ∧ n.children ≠ [] then !n.isCollapsed else n.isCollapsed
  | .expandAll => false
  | .collapseAll => decide (n.children ≠ [] ∧ t.root ≠ some i)
  | .expandPathTo id => if i ∈ t.ancestors id then false else n.isCollapsed

/-- Opening nodes opens those and changes no other. -/
theorem get?_foldl_unfold {α : Type} (ids : List NodeId) (t : Tree α) (i : NodeId) :
    (ids.foldl (fun t a => t.setCollapsed a false) t).get? i =
      (t.get? i).map (fun n => if i ∈ ids then { n with isCollapsed := false } else n) := by
  induction ids generalizing t with
  | nil => simp
  | cons id ids ih =>
    rw [List.foldl_cons, ih, setCollapsed, get?_modify]
    by_cases hid : id = i
    · subst hid
      cases t.get? id <;> simp
    · simp [hid, Ne.symm hid]

/-- An action changes the flags that it is about. -/
theorem refold_flag {α : Type} {t : Tree α} (h : t.Spanning) (a : Action) (i : NodeId) :
    ((a.refold t).get? i).map Node.isCollapsed = (t.get? i).map (fun n => a.flag t i n) := by
  cases a with
  | toggleCollapse id =>
    rw [Action.refold, get?_modify]
    by_cases hid : id = i
    · subst hid
      rw [if_pos rfl, Option.map_map]
      refine congrArg (fun f => (t.get? id).map f) (funext (fun n => ?_))
      cases hn : n.children <;> simp [Engine.flip, Node.isLeaf, Action.flag, hn]
    · simp [Action.flag, hid, Ne.symm hid]
  | expandAll =>
    rw [Action.refold, get?_map, Option.map_map]
    rfl
  | collapseAll =>
    rw [Action.refold, get?_map, Option.map_map]
    cases hn : t.get? i with
    | none => rfl
    | some n =>
      have hid := h.ids i n hn
      cases hc : n.children with
      | nil => simp [Node.isLeaf, Action.flag, hc]
      | cons k ks => by_cases hroot : t.root = some i <;> simp [Node.isLeaf, Action.flag, hid, hc, hroot, Ne.symm]
  | expandPathTo id =>
    rw [Action.refold, get?_foldl_unfold, Option.map_map]
    refine congrArg (fun f => (t.get? i).map f) (funext (fun n => ?_))
    by_cases hi : i ∈ t.ancestors id <;> simp [Action.flag, hi]

/-- Auto-collapse folds the nodes that it tells, and unfolds none. -/
theorem autoCollapse_flag {α : Type} (target iterations : Nat) (t : Tree α) (i : NodeId) :
    ((t.autoCollapse target iterations).1.get? i).map Node.isCollapsed =
      (t.get? i).map (fun n => (t.autoCollapse target iterations).2.contains i || n.isCollapsed) := by
  induction iterations generalizing t with
  | zero => simp [Tree.autoCollapse]
  | succ iterations ih =>
    rw [Tree.autoCollapse]
    split
    · simp
    · split
      · simp
      · split
        · simp
        · rename_i id _
          dsimp only
          rw [ih, setCollapsed, get?_modify]
          by_cases hid : id = i
          · subst hid
            cases t.get? id <;> simp
          · simp [hid, Ne.symm hid]

/-! ## Operations -/

/-- A plan differs from another in its state, in the geometry of nodes but for sizes above zero, and in collapse flags alone. -/
structure Kept (p p' : Plan α) : Prop where
  plan : p' = { p with tree := p'.tree, state := p'.state }
  nodes : Agrees Node.fixed p.tree p'.tree
  sizes : ∀ i n, p.tree.get? i = some n → ∃ m, p'.tree.get? i = some m ∧
    (Quantity.le n.width Quantity.zero = false → m.width = n.width) ∧
    (Quantity.le n.height Quantity.zero = false → m.height = n.height)

namespace Kept

variable {p p' p'' : Plan α}

/-- A plan is kept by doing nothing. -/
theorem refl (p : Plan α) : Kept p p := ⟨rfl, Agrees.refl _ _, fun _ n hn => ⟨n, hn, fun _ => rfl, fun _ => rfl⟩⟩

/-- What is kept twice is kept. -/
theorem trans (h : Kept p p') (h' : Kept p' p'') : Kept p p'' := by
  refine ⟨?_, h.nodes.trans h'.nodes, fun i n hn => ?_⟩
  · rw [h'.plan, h.plan]
  · obtain ⟨m, hm, hwidth, hheight⟩ := h.sizes i n hn
    obtain ⟨k, hk, hwidth', hheight'⟩ := h'.sizes i m hm
    refine ⟨k, hk, fun hpos => ?_, fun hpos => ?_⟩
    · rw [hwidth' (by rw [hwidth hpos]; exact hpos), hwidth hpos]
    · rw [hheight' (by rw [hheight hpos]; exact hpos), hheight hpos]

/-- A plan that is kept has its links. -/
theorem links (h : Kept p p') : Agrees Node.links p.tree p'.tree := h.nodes.view Node.links (fun _ => rfl)

/-- A plan that is kept is walked as before. -/
theorem spanning (h : Kept p p') (hp : p.tree.Spanning) : p'.tree.Spanning := hp.of_agrees h.links

/-- A plan that is kept lists its nodes as before. -/
theorem walked (h : Kept p p') (hp : p.Walked) : p'.Walked := hp.of_agrees h.links (by rw [h.plan])

/-- A change of flags alone. -/
theorem of_unflagged {t : Tree α} (h : Agrees Node.unflagged p.tree t) : Kept p { p with tree := t } := by
  refine ⟨rfl, h.view Node.fixed (fun _ => rfl), fun i n hn => ?_⟩
  have hsizes : Agrees (fun n => (n.width, n.height)) p.tree t := h.view (fun n => (n.width, n.height)) (fun _ => rfl)
  obtain ⟨m, hm, he⟩ := hsizes.get? hn
  obtain ⟨hwidth, hheight⟩ := Prod.mk.inj he
  exact ⟨m, hm, fun _ => hwidth, fun _ => hheight⟩

/-- A layout keeps the plan. -/
theorem layout (e : Engine α) (hp : p.tree.Spanning) : Kept p (e.layout p).2.1 := by
  have hrearranged := arrange_rearranged e.config hp
  refine ⟨?_, layout_agrees e p, fun i n hn => ?_⟩
  · rw [Engine.layout]
    dsimp only
    rw [Plan.advanceTo_spec]
  · rw [tree_layout]
    exact hrearranged.sizes hn

/-- Folding by itself keeps the plan. -/
theorem autoCollapse (e : Engine α) (p : Plan α) : Kept p (e.autoCollapse p).2.1 :=
  of_unflagged (autoCollapse_agrees _ _ p.tree)

/-- A new controller keeps the plan it is made for. -/
theorem new (config : LayoutConfig α) (hp : p.tree.Spanning) : Kept p (Controller.new p config).1.plan := by
  have hfolded := Kept.autoCollapse (Engine.new config) p
  exact hfolded.trans (Kept.layout _ (hfolded.spanning hp))

/-- An operation keeps the plan of the controller. -/
theorem perform (op : Operation) (hc : c.plan.tree.Spanning) : Kept c.plan (op.perform c).plan := by
  cases op with
  | layout => exact Kept.layout c.engine hc
  | autoCollapse => exact Kept.autoCollapse c.engine c.plan
  | act a =>
    rcases apply_cases c a with ⟨-, -, -, hsame⟩ | ⟨-, hlayout⟩
    · rw [Operation.perform, hsame]
      exact Kept.refl _
    · rw [Operation.perform, hlayout]
      have hflags : Kept c.plan (c.plan.mapTree a.refold) := of_unflagged (a.refold_agrees c.plan.tree)
      exact hflags.trans (Kept.layout c.engine (hflags.spanning hc))

end Kept

/-- What is done with a plan: an operation of its engine, or another engine takes it over, or another plan takes its place. -/
inductive Handling (α : Type) where
  | operate (op : Operation)
  | engine (e : Engine α)
  | replace (p : Plan α)

namespace Handling

/-- Does what is asked of a controller. -/
def perform (c : Controller α) : Handling α → Controller α
  | operate op => op.perform c
  | engine e => ⟨c.plan, e⟩
  | replace p => (c.replacePlan p).1

/-- Does one thing after the other. -/
def run (c : Controller α) (handlings : List (Handling α)) : Controller α := handlings.foldl perform c

/-- The plan in hand, as it was when it was taken over. -/
def original (p : Plan α) (handlings : List (Handling α)) : Plan α :=
  handlings.foldl (fun p h =>
    match h with
    | replace p' => p'
    | _ => p) p

/-- Whatever is done once keeps the plan that was there before, or the one that took its place. -/
theorem perform_kept (h : Handling α) {p : Plan α} (hc : c.plan.tree.Spanning) (hkept : Kept p c.plan)
    (hreplace : ∀ p', h = replace p' → p'.tree.Spanning) : Kept (original p [h]) (h.perform c).plan := by
  cases h with
  | operate op => exact hkept.trans (Kept.perform op hc)
  | engine e => exact hkept
  | replace p' => exact Kept.new c.engine.config (hreplace p' rfl)

/-- Whatever is done one after the other keeps the plan that was taken over last. -/
theorem run_kept (handlings : List (Handling α)) {p : Plan α} (hp : p.tree.Spanning) (hkept : Kept p c.plan)
    (hreplace : ∀ p', replace p' ∈ handlings → p'.tree.Spanning) :
    (original p handlings).tree.Spanning ∧ Kept (original p handlings) (run c handlings).plan := by
  induction handlings generalizing p c with
  | nil => exact ⟨hp, hkept⟩
  | cons h handlings ih =>
    have hnext : (original p [h]).tree.Spanning := by
      cases h with
      | operate op => exact hp
      | engine e => exact hp
      | replace p' => exact hreplace p' List.mem_cons_self
    exact ih hnext (h.perform_kept (hkept.spanning hp) hkept (fun p' he => hreplace p' (he ▸ List.mem_cons_self)))
      (fun p' hmem => hreplace p' (List.mem_cons_of_mem h hmem))

end Handling

/-- Whatever is done with a plan, its nodes differ from those it was taken over with in their geometry, but for sizes above zero,
and in their collapse flags alone; and its list of nodes, its issues and its totals are as they were. A layout changes no flag, and
no hidden node at all. Auto-collapse folds the nodes that it tells; an action changes the flags it is about, and one that is
refused changes nothing. -/
theorem operations_keep_plan (c : Controller α) (handlings : List (Handling α)) (hplan : c.plan.tree.Spanning)
    (hreplace : ∀ p, .replace p ∈ handlings → p.tree.Spanning) :
    let original := Handling.original c.plan handlings
    let d := Handling.run c handlings
    let t := d.plan.tree
    let laid := (d.engine.layout d.plan).2.1.tree
    let folded := t.autoCollapse d.engine.config.autoCollapseTarget d.engine.config.autoCollapseMaxIterations
    Kept original d.plan ∧ (original.Walked → d.plan.Walked) ∧
    (Agrees Node.isCollapsed t laid ∧ ∀ i, i ∉ t.visiblePreOrder → laid.get? i = t.get? i) ∧
    ((d.engine.autoCollapse d.plan).2.1.tree = folded.1 ∧
      ∀ i, (folded.1.get? i).map Node.isCollapsed = (t.get? i).map (fun n => folded.2.contains i || n.isCollapsed)) ∧
    (∀ a : Action, (∀ i, a.target? = some i → t.contains i = true) →
      ∀ i, ((d.apply a).1.plan.tree.get? i).map Node.isCollapsed = (t.get? i).map (fun n => a.flag t i n)) ∧
    (∀ (a : Action) i, a.target? = some i → t.contains i = false → (d.apply a).1 = d) ∧
    (original.tree.Linked → ∀ id, id ∉ t.ancestors id) := by
  intro original d t laid folded
  obtain ⟨horiginal, hkept⟩ := Handling.run_kept handlings hplan (Kept.refl c.plan) hreplace
  have hspanning : t.Spanning := hkept.spanning horiginal
  have hlaid : laid = (Engine.arrange d.engine.config t).1 := tree_layout d.engine d.plan
  refine ⟨hkept, hkept.walked, ⟨?_, fun i hi => ?_⟩, ⟨rfl, autoCollapse_flag _ _ t⟩, fun a ha i => ?_, fun a i ha hi => ?_,
    fun hlinked => hspanning.not_mem_ancestors (hlinked.of_agrees hkept.links)⟩
  · rw [hlaid]
    exact arrange_isCollapsed d.engine.config t
  · rw [hlaid]
    exact (arrange_rearranged d.engine.config hspanning).outside hi
  · rw [apply_known d ha, ← refold_flag hspanning a i]
    change ((d.engine.layout (d.plan.mapTree a.refold)).2.1.tree.get? i).map Node.isCollapsed = _
    rw [tree_layout]
    exact (arrange_isCollapsed d.engine.config _).2 i
  · rw [apply_unknown d ha hi]

/-- A plan of three rows is folded by hand, another of two rows takes its place, and a second engine goes on with that one. -/
theorem operations_keep_plan_rows :
    let row (level : Nat) : Row := ⟨1, level, "", "", .unknown, none, none⟩
    let plan (levels : List Nat) : Plan Rat := Plan.parsed .physical "" (Tree.ofRows (levels.map row))
    let c : Controller Rat := ⟨plan [0, 1, 1], Engine.new LayoutConfig.standard⟩
    let handlings : List (Handling Rat) := [.operate .autoCollapse, .operate (.act (.toggleCollapse 0)), .replace (plan [0, 1]),
      .engine (Engine.new LayoutConfig.standard), .operate (.act (.expandPathTo 7)), .operate .layout]
    c.plan.tree.Spanning ∧ (∀ p, .replace p ∈ handlings → p.tree.Spanning) ∧
      Kept (plan [0, 1]) (Handling.run c handlings).plan := by
  intro row plan c handlings
  have hspanning : ∀ levels, (plan levels).tree.Spanning := fun levels => (Outline.ofRows_wellFormed _).toSpanning
  have hreplace : ∀ p, .replace p ∈ handlings → p.tree.Spanning := by
    intro p hp
    have hp' : p = plan [0, 1] := by simpa [handlings] using hp
    rw [hp']
    exact hspanning _
  exact ⟨hspanning _, hreplace, (operations_keep_plan c handlings (hspanning _) hreplace).1⟩

end DaxPlan.Layout
