import DaxPlan.Proofs.Layout.Lockstep
import DaxPlan.Proofs.Layout.Replay

/-!
# A layout forgets what was before it

An engine works on one plan, in place: each layout finds the geometry that earlier ones left, and nodes that are hidden keep
theirs until they are seen again. None of it shows. Whatever has been done to a plan, a layout of it is determined by the plan
as it was at first and by the collapse flags (`layout_forgets_history`): two ways to the same flags end in the same visible
nodes, at the same places and of the same sizes. What an operation may leave behind is a standard size in the place of none
(`Operation.perform_agrees`), and a layout gives that anyway.

No law of arithmetic is used: the quantities may be floating-point numbers.
-/

namespace DaxPlan

/-- A node with the standard size where it has none, without its position and its collapse flag: what no operation changes. -/
def Node.settled {α : Type} [Quantity α] (config : LayoutConfig α) (n : Node α) : Node α := (n.sized config).unflagged

/-- What a node tells about folding. -/
def Node.folding {α : Type} (n : Node α) : Bool × Bool := (n.isLeaf, n.isCollapsed)

namespace Layout

open DaxPlan.Tree

/-! ## Operations -/

/-- What an engine can be asked to do with a plan: to lay it out, to fold nodes until it fits, or what a user may ask for. -/
inductive Operation where
  | layout
  | autoCollapse
  | act (a : Action)
  deriving DecidableEq, Repr

namespace Operation

/-- The node that an operation is on. -/
def target? : Operation → Option NodeId
  | layout => none
  | autoCollapse => none
  | act a => a.target?

/-- The plan and its engine after an operation. -/
def perform {α : Type} [Quantity α] (c : Controller α) : Operation → Controller α
  | layout => (Controller.ofRun (c.engine.layout c.plan)).1
  | autoCollapse => (Controller.ofRun (c.engine.autoCollapse c.plan)).1
  | act a => (c.apply a).1

/-- A plan and its engine, which was new at first, after several operations. -/
def run {α : Type} [Quantity α] (plan : Plan α) (config : LayoutConfig α) (ops : List Operation) : Controller α :=
  ops.foldl perform ⟨plan, Engine.new config⟩

end Operation

/-- The last of several operations lays the plan out: it does not fold nodes alone, and it is not refused. -/
def EndsLaid {α : Type} (plan : Plan α) (ops : List Operation) : Prop :=
  ∃ before last, ops = before ++ [last] ∧ last ≠ .autoCollapse ∧ ∀ i, last.target? = some i → plan.tree.contains i = true

variable {α : Type} [Quantity α] {config : LayoutConfig α} {plan : Plan α} {c c' : Controller α} {t t' : Tree α}
  {ops : List Operation} {id : NodeId}

/-- The same nodes are visible of two plans, they are the same in all they tell, and the engines report the same. -/
structure SameLayout (c c' : Controller α) : Prop where
  visible : c'.plan.tree.visiblePreOrder = c.plan.tree.visiblePreOrder
  nodes : ∀ i ∈ c.plan.tree.visiblePreOrder, c'.plan.tree.get? i = c.plan.tree.get? i
  stats : c'.engine.stats = c.engine.stats

/-! ## What is kept -/

/-- A layout leaves behind the sizes it has given, and nothing else that another layout takes over. -/
theorem arrange_sized (config : LayoutConfig α) (t : Tree α) : Agrees (Node.sized config) t (Engine.arrange config t).1 := by
  have hsizes : Agrees (Node.sized config) t (applyDefaultSizes config t.visiblePreOrder t) := by
    unfold applyDefaultSizes
    refine Agrees.foldl _ (fun t id => Agrees.modify t id _ (fun n => ?_)) _ t
    rw [Node.sized, applyDefaultSize_twice, Node.sized]
  have hplace : ∀ u, Agrees (Node.sized config) u (place config t.visiblePreOrder u) :=
    fun u => (place_agrees config _ u).view (Node.sized config) (fun _ => rfl)
  have hresolve : ∀ u, Agrees (Node.sized config) u (resolveOverlaps config t.visiblePreOrder u).1 :=
    fun u => (resolveOverlaps_agrees config _ u).view (Node.sized config) (fun _ => rfl)
  exact (hsizes.trans (hplace _)).trans (hresolve _)

theorem layout_settled (e : Engine α) (p : Plan α) : Agrees (Node.settled e.config) p.tree (e.layout p).2.1.tree := by
  rw [tree_layout]
  exact (arrange_sized e.config p.tree).view Node.unflagged (fun _ => rfl)

theorem unflagged_settled (h : Agrees Node.unflagged t t') : Agrees (Node.settled config) t t' :=
  h.view (Node.settled config) (fun _ => rfl)

/-- An action is refused and changes nothing, or flags are changed and the plan is laid out. -/
theorem apply_cases (c : Controller α) (a : Action) :
    (∃ i, a.target? = some i ∧ c.plan.tree.contains i = false ∧ (c.apply a).1 = c) ∨
      ((∀ i, a.target? = some i → c.plan.tree.contains i = true) ∧
        (c.apply a).1 = (Controller.ofRun (c.engine.layout (c.plan.mapTree a.refold))).1) := by
  by_cases ha : ∀ i, a.target? = some i → c.plan.tree.contains i = true
  · rw [apply_known c ha]
    exact Or.inr ⟨ha, rfl⟩
  · simp only [not_forall, Bool.not_eq_true] at ha
    obtain ⟨i, htarget, hi⟩ := ha
    rw [apply_unknown c htarget hi]
    exact Or.inl ⟨i, htarget, hi, rfl⟩

namespace Operation

theorem perform_config (c : Controller α) (op : Operation) : (op.perform c).engine.config = c.engine.config := by
  cases op with
  | layout => rfl
  | autoCollapse =>
    simp only [perform, Controller.ofRun, Engine.autoCollapse]
    split <;> rfl
  | act a =>
    rcases apply_cases c a with ⟨-, -, -, hsame⟩ | ⟨-, hlayout⟩
    · rw [perform, hsame]
    · rw [perform, hlayout]
      rfl

/-- An operation changes positions and collapse flags, and gives nodes without a size the standard one. -/
theorem perform_agrees (c : Controller α) (op : Operation) :
    Agrees (Node.settled c.engine.config) c.plan.tree (op.perform c).plan.tree := by
  cases op with
  | layout => exact layout_settled c.engine c.plan
  | autoCollapse => exact unflagged_settled (autoCollapse_agrees _ _ c.plan.tree)
  | act a =>
    rcases apply_cases c a with ⟨-, -, -, hsame⟩ | ⟨-, hlayout⟩
    · rw [perform, hsame]
      exact Agrees.refl _ _
    · rw [perform, hlayout]
      exact (unflagged_settled (a.refold_agrees _)).trans (layout_settled c.engine _)

theorem foldl_perform_agrees (ops : List Operation) (c : Controller α) :
    (ops.foldl perform c).engine.config = c.engine.config ∧
      Agrees (Node.settled c.engine.config) c.plan.tree (ops.foldl perform c).plan.tree := by
  induction ops generalizing c with
  | nil => exact ⟨rfl, Agrees.refl _ _⟩
  | cons op ops ih =>
    obtain ⟨hconfig, hagrees⟩ := ih (op.perform c)
    rw [perform_config c op] at hconfig hagrees
    exact ⟨hconfig, (perform_agrees c op).trans hagrees⟩

theorem run_config (plan : Plan α) (config : LayoutConfig α) (ops : List Operation) :
    (run plan config ops).engine.config = config :=
  (foldl_perform_agrees ops ⟨plan, Engine.new config⟩).1

theorem run_agrees (plan : Plan α) (config : LayoutConfig α) (ops : List Operation) :
    Agrees (Node.settled config) plan.tree (run plan config ops).plan.tree :=
  (foldl_perform_agrees ops ⟨plan, Engine.new config⟩).2

theorem run_append (plan : Plan α) (config : LayoutConfig α) (ops more : List Operation) :
    run plan config (ops ++ more) = more.foldl perform (run plan config ops) :=
  List.foldl_append

end Operation

/-! ## What is laid out -/

/-- A plan stands as a layout of a tree has left it, and the engine reports on that layout. -/
structure LaidFrom (c : Controller α) (t : Tree α) : Prop where
  tree : c.plan.tree = (Engine.arrange c.engine.config t).1
  stats : c.engine.stats = (Engine.arrange c.engine.config t).2

theorem layout_laidFrom (e : Engine α) (p : Plan α) : LaidFrom (Controller.ofRun (e.layout p)).1 p.tree :=
  ⟨tree_layout e p, rfl⟩

/-- An operation that lays the plan out leaves a layout of a tree in which no more than flags has changed. -/
theorem Operation.perform_laidFrom (c : Controller α) {op : Operation} (hop : op ≠ .autoCollapse)
    (hknown : ∀ i, op.target? = some i → c.plan.tree.contains i = true) :
    ∃ t, Agrees Node.unflagged c.plan.tree t ∧ LaidFrom (op.perform c) t := by
  cases op with
  | layout => exact ⟨c.plan.tree, Agrees.refl _ _, layout_laidFrom c.engine c.plan⟩
  | autoCollapse => exact absurd rfl hop
  | act a =>
    rcases apply_cases c a with ⟨i, htarget, hi, -⟩ | ⟨-, hlayout⟩
    · rw [hknown i htarget] at hi
      cases hi
    · refine ⟨a.refold c.plan.tree, a.refold_agrees _, ?_⟩
      rw [Operation.perform, hlayout]
      exact layout_laidFrom c.engine (c.plan.mapTree a.refold)

/-- Operations that end with a layout leave a layout of the plan as it was at first, but for flags and standard sizes. -/
theorem EndsLaid.run_laidFrom (h : EndsLaid plan ops) (config : LayoutConfig α) :
    ∃ t, Agrees (Node.settled config) plan.tree t ∧ LaidFrom (Operation.run plan config ops) t := by
  obtain ⟨before, last, rfl, hlast, hknown⟩ := h
  have hbefore := Operation.run_agrees plan config before
  obtain ⟨t, hflags, hlaid⟩ := Operation.perform_laidFrom (Operation.run plan config before) hlast
    (fun i hi => (hbefore.contains_eq i).trans (hknown i hi))
  refine ⟨t, hbefore.trans (unflagged_settled hflags), ?_⟩
  rw [Operation.run_append]
  exact hlaid

theorem arrange_isCollapsed (config : LayoutConfig α) (t : Tree α) :
    Agrees Node.isCollapsed t (Engine.arrange config t).1 :=
  (arrange_agrees config t).view Node.isCollapsed (fun _ => rfl)

/-- Two layouts of what was one plan are the same, if the same nodes are collapsed. -/
theorem LaidFrom.same (h : LaidFrom c t) (h' : LaidFrom c' t') (hconfig : c'.engine.config = c.engine.config)
    (hs : t.Spanning) (hsettled : Agrees (Node.settled c.engine.config) t t')
    (hflags : ∀ i, (c'.plan.tree.get? i).map Node.isCollapsed = (c.plan.tree.get? i).map Node.isCollapsed) :
    SameLayout c c' := by
  have hsized : Agrees (Node.sized c.engine.config) t t' := by
    have hflag : ∀ i, (t'.get? i).map Node.isCollapsed = (t.get? i).map Node.isCollapsed := by
      intro i
      rw [← (arrange_isCollapsed c.engine.config t).2 i, ← (arrange_isCollapsed c'.engine.config t').2 i, ← h.tree, ← h'.tree]
      exact hflags i
    exact (hsettled.pair hflag).view (fun m => { m.1 with isCollapsed := m.2 }) (fun _ => rfl)
  obtain ⟨hvisible, hnodes, hstats⟩ := arrange_congr hsized hs
  have horder : c.plan.tree.visiblePreOrder = t.visiblePreOrder := by
    rw [h.tree]
    exact visiblePreOrder_congr ((arrange_agrees _ t).view Node.visibleChildren (fun _ => rfl))
  have horder' : c'.plan.tree.visiblePreOrder = t'.visiblePreOrder := by
    rw [h'.tree]
    exact visiblePreOrder_congr ((arrange_agrees _ t').view Node.visibleChildren (fun _ => rfl))
  refine ⟨?_, ?_, ?_⟩
  · rw [horder, horder', hvisible]
  · rw [horder, h.tree, h'.tree, hconfig]
    exact hnodes
  · rw [h.stats, h'.stats, hconfig]
    exact hstats

/-! ## Ways back -/

theorem flip_flip {α : Type} (n : Node α) : Engine.flip (Engine.flip n) = n := by
  unfold Engine.flip Node.isLeaf
  split
  · rfl
  · simp_all

theorem folding_flip {α : Type} {n n' : Node α} (h : n'.folding = n.folding) :
    (Engine.flip n').folding = (Engine.flip n).folding := by
  obtain ⟨hleaf, hflag⟩ := Prod.mk.inj h
  unfold Engine.flip
  rw [hleaf]
  split
  · exact h
  · exact Prod.ext hleaf (congrArg (!·) hflag)

/-- What an action on a node that is there does to the flags is kept by the layout after it. -/
theorem perform_act_folding (c : Controller α) {a : Action} (ha : ∀ i, a.target? = some i → c.plan.tree.contains i = true) :
    Agrees Node.folding (a.refold c.plan.tree) (Operation.perform c (.act a)).plan.tree := by
  rcases apply_cases c a with ⟨i, htarget, hi, -⟩ | ⟨-, hlayout⟩
  · rw [ha i htarget] at hi
    cases hi
  · rw [Operation.perform, hlayout, (layout_laidFrom c.engine (c.plan.mapTree a.refold)).tree]
    exact (arrange_agrees _ _).view Node.folding (fun _ => rfl)

/-- To toggle a node twice changes no flag. -/
theorem perform_toggle_twice (c : Controller α) (hid : c.plan.tree.contains id = true) :
    Agrees Node.folding c.plan.tree
      (Operation.perform (Operation.perform c (.act (.toggleCollapse id))) (.act (.toggleCollapse id))).plan.tree := by
  have hknown : ∀ d : Controller α, d.plan.tree.contains id = true →
      Agrees Node.folding (d.plan.tree.modify id Engine.flip) (Operation.perform d (.act (.toggleCollapse id))).plan.tree := by
    intro d hd
    exact perform_act_folding d (a := .toggleCollapse id) (fun i hi => Option.some.inj hi ▸ hd)
  have hback : Agrees Node.folding c.plan.tree ((c.plan.tree.modify id Engine.flip).modify id Engine.flip) := by
    refine ⟨rfl, fun i => ?_⟩
    rw [get?_modify, get?_modify]
    split
    · cases c.plan.tree.get? i with
      | none => rfl
      | some n => exact congrArg (fun m => some m.folding) (flip_flip n)
    · rfl
  have hfirst := hknown c hid
  have hkept := (Operation.perform_agrees c (.act (.toggleCollapse id))).contains_eq id
  have hsecond := hknown (Operation.perform c (.act (.toggleCollapse id))) (hkept.trans hid)
  exact (hback.trans (hfirst.modify_both id _ (fun _ _ => folding_flip))).trans hsecond

/-- To toggle a node an even number of times changes no flag. -/
theorem foldl_toggle_even (k : Nat) (c : Controller α) (hid : c.plan.tree.contains id = true) :
    Agrees Node.folding c.plan.tree
      ((List.replicate (2 * k) (Operation.act (.toggleCollapse id))).foldl Operation.perform c).plan.tree := by
  induction k generalizing c with
  | zero => exact Agrees.refl _ _
  | succ k ih =>
    have htwice := perform_toggle_twice c hid
    rw [show 2 * (k + 1) = 2 * k + 1 + 1 from rfl, List.replicate_succ, List.replicate_succ, List.foldl_cons, List.foldl_cons]
    exact htwice.trans (ih _ ((htwice.contains_eq id).trans hid))

/-- Once all nodes are unfolded, none is collapsed. -/
theorem isCollapsed_expandAll (c : Controller α) {i : NodeId} {n : Node α}
    (hn : (Operation.perform c (.act .expandAll)).plan.tree.get? i = some n) : n.isCollapsed = false := by
  have hflags : Agrees Node.folding (Action.expandAll.refold c.plan.tree)
      (Operation.perform c (.act .expandAll)).plan.tree :=
    perform_act_folding c (fun i hi => nomatch hi)
  obtain ⟨m, hm, he⟩ := hflags.symm.get? hn
  rw [Action.refold, get?_map, Option.map_eq_some_iff] at hm
  obtain ⟨k, -, rfl⟩ := hm
  exact (congrArg Prod.snd he).symm

theorem isCollapsed_run_expandAll {ops : List Operation} {i : NodeId} {n : Node α}
    (hn : (Operation.run plan config (ops ++ [.act .expandAll])).plan.tree.get? i = some n) : n.isCollapsed = false := by
  rw [Operation.run_append] at hn
  exact isCollapsed_expandAll _ hn

/-- In plans that come from one no flags differ, if no node is collapsed in either. -/
theorem isCollapsed_eq_of_unfolded {α β : Type} {t t' : Tree α} {f : Node α → β} (h : Agrees f t t')
    (hn : ∀ i n, t.get? i = some n → n.isCollapsed = false) (hn' : ∀ i n, t'.get? i = some n → n.isCollapsed = false)
    (i : NodeId) : (t'.get? i).map Node.isCollapsed = (t.get? i).map Node.isCollapsed := by
  have hi := h.2 i
  cases hg : t.get? i with
  | none =>
    rw [hg, Option.map_none, Option.map_eq_none_iff] at hi
    rw [hi, Option.map_none]
  | some n =>
    obtain ⟨n', hg', -⟩ := h.get? hg
    rw [hg', Option.map_some, Option.map_some, hn i n hg, hn' i n' hg']

/-! ## The layout is the same -/

theorem EndsLaid.same {plan : Plan α} {ops ops' : List Operation} (h : EndsLaid plan ops) (h' : EndsLaid plan ops')
    (hs : plan.tree.Spanning) (config : LayoutConfig α)
    (hflags : ∀ i, ((Operation.run plan config ops').plan.tree.get? i).map Node.isCollapsed =
      ((Operation.run plan config ops).plan.tree.get? i).map Node.isCollapsed) :
    SameLayout (Operation.run plan config ops) (Operation.run plan config ops') := by
  obtain ⟨t, ht, hlaid⟩ := h.run_laidFrom config
  obtain ⟨t', ht', hlaid'⟩ := h'.run_laidFrom config
  have hconfig := Operation.run_config plan config ops
  refine hlaid.same hlaid' ((Operation.run_config plan config ops').trans hconfig.symm) ?_ ?_ hflags
  · exact hs.of_agrees (ht.view Node.links (fun _ => rfl))
  · rw [hconfig]
    exact ht.symm.trans ht'

/-- A layout forgets what was done before it. Two sequences of operations on one plan that each end with a layout and leave the
same nodes collapsed show the same nodes, at the same places and of the same sizes, and the engines report the same. So to toggle
a node an even number of times restores the layout, and so does to fold all and to unfold all, where all was unfolded. -/
theorem layout_forgets_history (plan : Plan α) (config : LayoutConfig α) (hplan : plan.tree.Spanning) :
    (∀ ops ops', EndsLaid plan ops → EndsLaid plan ops' →
      (∀ i, ((Operation.run plan config ops').plan.tree.get? i).map Node.isCollapsed =
        ((Operation.run plan config ops).plan.tree.get? i).map Node.isCollapsed) →
      SameLayout (Operation.run plan config ops) (Operation.run plan config ops')) ∧
    (∀ ops id k, EndsLaid plan ops → plan.tree.contains id = true →
      SameLayout (Operation.run plan config ops)
        (Operation.run plan config (ops ++ List.replicate (2 * k) (.act (.toggleCollapse id))))) ∧
    (∀ ops, EndsLaid plan ops →
      (∀ i n, (Operation.run plan config ops).plan.tree.get? i = some n → n.isCollapsed = false) →
      SameLayout (Operation.run plan config ops)
        (Operation.run plan config (ops ++ [.act .collapseAll, .act .expandAll]))) := by
  refine ⟨fun ops ops' h h' hflags => h.same h' hplan config hflags, fun ops id k h hid => ?_, fun ops h hunfolded => ?_⟩
  · have hlast : EndsLaid plan (ops ++ List.replicate (2 * k) (.act (.toggleCollapse id))) := by
      cases k with
      | zero => simpa using h
      | succ k =>
        refine ⟨ops ++ List.replicate (2 * k + 1) (.act (.toggleCollapse id)), .act (.toggleCollapse id), ?_, nofun, ?_⟩
        · rw [List.append_assoc, ← List.replicate_succ']
          rfl
        · intro i hi
          exact Option.some.inj hi ▸ hid
    refine h.same hlast hplan config ?_
    rw [Operation.run_append]
    have hknown := ((Operation.run_agrees plan config ops).contains_eq id).trans hid
    exact ((foldl_toggle_even k _ hknown).view Prod.snd (fun _ => rfl)).2
  · have hlast : EndsLaid plan (ops ++ [.act .collapseAll, .act .expandAll]) :=
      ⟨ops ++ [.act .collapseAll], .act .expandAll, by rw [List.append_assoc]; rfl, nofun, fun i hi => nomatch hi⟩
    have hagrees := (Operation.run_agrees plan config ops).symm.trans
      (Operation.run_agrees plan config (ops ++ [.act .collapseAll, .act .expandAll]))
    have hlaid : ∀ i n, (Operation.run plan config (ops ++ [.act .collapseAll, .act .expandAll])).plan.tree.get? i = some n →
        n.isCollapsed = false := by
      intro i n hn
      rw [List.append_cons] at hn
      exact isCollapsed_run_expandAll hn
    exact h.same hlast hplan config (isCollapsed_eq_of_unfolded hagrees hunfolded hlaid)

/-- Two ways to a plan of three rows with nothing collapsed, its first row toggled twice, and all of it folded and unfolded. -/
theorem layout_forgets_history_rows :
    let row (level : Nat) : Row := ⟨1, level, "", "", .unknown, none, none⟩
    let plan : Plan Rat := Plan.parsed .physical "" (Tree.ofRows [row 0, row 1, row 1])
    let run := Operation.run plan LayoutConfig.standard
    let unfold : List Operation := [.act .expandAll]
    plan.tree.Spanning ∧ EndsLaid plan unfold ∧ plan.tree.contains 0 = true ∧
      SameLayout (run unfold) (run [.autoCollapse, .act (.toggleCollapse 0), .act .expandAll]) ∧
      SameLayout (run unfold) (run (unfold ++ List.replicate 2 (.act (.toggleCollapse 0)))) ∧
      SameLayout (run unfold) (run (unfold ++ [.act .collapseAll, .act .expandAll])) := by
  intro row plan run unfold
  have htree : plan.tree = Tree.ofRows [row 0, row 1, row 1] := Plan.tree_parsed _ _ _
  have hplan : plan.tree.Spanning := by
    rw [htree]
    exact (Outline.ofRows_wellFormed _).toSpanning
  have hroot : plan.tree.contains 0 = true := by
    rw [htree]
    decide
  have hends : ∀ ops, EndsLaid plan (ops ++ [.act .expandAll]) := fun ops => ⟨ops, _, rfl, nofun, fun i hi => nomatch hi⟩
  have hflat : ∀ ops i n, (run (ops ++ [.act .expandAll])).plan.tree.get? i = some n → n.isCollapsed = false :=
    fun ops i n hn => isCollapsed_run_expandAll hn
  have hways : Agrees (Node.settled LayoutConfig.standard) (run unfold).plan.tree
      (run ([.autoCollapse, .act (.toggleCollapse 0)] ++ [.act .expandAll])).plan.tree :=
    (Operation.run_agrees plan _ unfold).symm.trans (Operation.run_agrees plan _ _)
  obtain ⟨hsame, htoggle, hround⟩ := layout_forgets_history plan LayoutConfig.standard hplan
  refine ⟨hplan, hends [], hroot, ?_, htoggle _ 0 1 (hends []) hroot, hround _ (hends []) (hflat [])⟩
  exact hsame _ _ (hends []) (hends [.autoCollapse, .act (.toggleCollapse 0)])
    (isCollapsed_eq_of_unfolded hways (hflat []) (hflat [.autoCollapse, .act (.toggleCollapse 0)]))

end Layout

end DaxPlan
