import DaxPlan.Layout.Engine
import DaxPlan.Proofs.Tree.Spanning

/-!
# What the passes of a layout leave alone

Sizes are given, nodes are placed, subtrees are shifted and parents put over their children; each pass writes its own part of the
geometry and nothing else. The views of a node below are what is left when that part is taken away, and the statements are that
the trees before and after a pass agree in them. Links, levels and collapse flags are in all views but the last, so they can be
read off the tree before a layout or after it.
-/

namespace DaxPlan

namespace Node

variable {α : Type} [Quantity α]

/-- A node but for its left edge. -/
def offX (n : Node α) : Node α := { n with x := Quantity.zero }

/-- A node but for its position. -/
def unplaced (n : Node α) : Node α := { n with x := Quantity.zero, y := Quantity.zero }

/-- A node but for its size. -/
def unsized (n : Node α) : Node α := { n with width := Quantity.zero, height := Quantity.zero }

/-- A node but for its geometry. -/
def bare (n : Node α) : Node α :=
  { n with x := Quantity.zero, y := Quantity.zero, width := Quantity.zero, height := Quantity.zero }

/-- A node but for its collapse flag. -/
def unflagged (n : Node α) : Node α := { n with isCollapsed := false }

/-- A node but for its geometry and its collapse flag: what no layout and no action on it changes. -/
def fixed (n : Node α) : Node α := { n.bare with isCollapsed := false }

end Node

namespace Layout

open DaxPlan.Tree

variable {α : Type} [Quantity α]

/-! ## The passes -/

/-- Default sizes change nothing but sizes. -/
theorem applyDefaultSizes_agrees (config : LayoutConfig α) (order : List NodeId) (t : Tree α) :
    Agrees Node.unsized t (applyDefaultSizes config order t) := by
  unfold applyDefaultSizes
  exact Agrees.foldl _ (fun t id => Agrees.modify t id (applyDefaultSize config) (fun _ => rfl)) order t

/-- Putting a node at its place changes nothing but its place. -/
theorem placeNode_agrees (config : LayoutConfig α) (widths places : Table α) (id : NodeId) (t : Tree α) :
    Agrees Node.unplaced t (placeNode config widths places id t) := by
  unfold placeNode
  split
  · exact Agrees.refl _ t
  · exact Agrees.modify t id _ (fun _ => rfl)

/-- The first placement changes nothing but places. -/
theorem place_agrees (config : LayoutConfig α) (order : List NodeId) (t : Tree α) :
    Agrees Node.unplaced t (place config order t) :=
  Agrees.foldr _ (fun t id => placeNode_agrees config _ _ id t) order t

/-- A shift changes nothing but left edges. -/
theorem shiftSubtree_agrees (t : Tree α) (id : NodeId) (dx : α) : Agrees Node.offX t (shiftSubtree t id dx) := by
  unfold shiftSubtree
  refine Agrees.foldl _ (fun t id => ?_) _ t
  exact Agrees.modify t id _ (fun _ => rfl)

/-- A sweep along a level changes nothing but left edges. -/
theorem sweepLevel_agrees (config : LayoutConfig α) (ids : List NodeId) (t : Tree α) (shifts : Nat) :
    Agrees Node.offX t (sweepLevel config ids (t, shifts)).1 := by
  induction ids generalizing t shifts with
  | nil => exact Agrees.refl _ t
  | cons left ids ih =>
    cases ids with
    | nil => exact Agrees.refl _ t
    | cons right rest =>
      simp only [sweepLevel]
      split
      · exact (shiftSubtree_agrees t right _).trans (ih _ _)
      · exact ih _ _

/-- Sweeping some levels changes nothing but left edges. -/
theorem foldl_sweepNext_agrees (config : LayoutConfig α) (levels : List (List NodeId)) (t : Tree α) (shifts : Nat) :
    Agrees Node.offX t (levels.foldl (sweepNext config) (t, shifts)).1 := by
  induction levels generalizing t shifts with
  | nil => exact Agrees.refl _ t
  | cons ids levels ih => exact (sweepLevel_agrees config _ t shifts).trans (ih _ _)

/-- A sweep changes nothing but left edges. -/
theorem sweep_agrees (config : LayoutConfig α) (levels : List (List NodeId)) (t : Tree α) :
    Agrees Node.offX t (sweep config levels t).1 :=
  foldl_sweepNext_agrees config levels t 0

/-- Centring a node changes nothing but its left edge. -/
theorem recenterNode_agrees (t : Tree α) (id : NodeId) : Agrees Node.offX t (recenterNode t id) := by
  unfold recenterNode
  split
  · exact Agrees.refl _ t
  · exact Agrees.modify t id _ (fun _ => rfl)

/-- Centring changes nothing but left edges. -/
theorem recenter_agrees (levels : List (List NodeId)) (t : Tree α) : Agrees Node.offX t (recenter levels t) :=
  Agrees.foldl _ (fun t ids => Agrees.foldl _ recenterNode_agrees ids t) levels.reverse t

/-- Rounds end with the first sweep that shifts nothing. -/
theorem resolveRounds_of_still {config : LayoutConfig α} {levels : List (List NodeId)} {t : Tree α}
    (h : sweep config levels t = (t, 0)) (more : Nat) (stats : Stats) :
    resolveRounds config levels more t stats = (t, { stats with rounds := stats.rounds + 1, converged := true }) := by
  cases more <;> (rw [resolveRounds, h]; rfl)

/-- A sweep that shifts something is followed by another round over parents put back, if there is one left. -/
theorem resolveRounds_again {config : LayoutConfig α} {levels : List (List NodeId)} {t : Tree α}
    (h : (sweep config levels t).2 ≠ 0) (more : Nat) (stats : Stats) :
    resolveRounds config levels (more + 1) t stats = resolveRounds config levels more (recenter levels (sweep config levels t).1)
      { stats with rounds := stats.rounds + 1, shifts := stats.shifts + (sweep config levels t).2 } := by
  rw [resolveRounds]
  dsimp only
  rw [if_neg (by simpa using h)]

/-- Rounds end on a sweep, over a tree that only the left edges tell from the one they began with. -/
theorem resolveRounds_last_sweep (config : LayoutConfig α) (levels : List (List NodeId)) (more : Nat) (t : Tree α)
    (stats : Stats) :
    ∃ t', Agrees Node.offX t t' ∧ (resolveRounds config levels more t stats).1 = (sweep config levels t').1 := by
  induction more generalizing t stats with
  | zero =>
    refine ⟨t, Agrees.refl _ t, ?_⟩
    rw [resolveRounds]
    dsimp only
    split <;> rfl
  | succ more ih =>
    rw [resolveRounds]
    dsimp only
    split
    · exact ⟨t, Agrees.refl _ t, rfl⟩
    · obtain ⟨t', ht', hlast⟩ := ih (recenter levels (sweep config levels t).1)
        { stats with rounds := stats.rounds + 1, shifts := stats.shifts + (sweep config levels t).2 }
      exact ⟨t', ((sweep_agrees config levels t).trans (recenter_agrees levels _)).trans ht', hlast⟩

/-- Resolving overlaps changes nothing but left edges. -/
theorem resolveOverlaps_agrees (config : LayoutConfig α) (order : List NodeId) (t : Tree α) :
    Agrees Node.offX t (resolveOverlaps config order t).1 := by
  obtain ⟨t', ht', hlast⟩ := resolveRounds_last_sweep config (levels t order) (max config.maxOverlapIterations 1 - 1) t
    { visibleNodes := order.length }
  unfold resolveOverlaps
  rw [hlast]
  exact ht'.trans (sweep_agrees config _ t')

/-! ## The layout and the actions -/

/-- A layout changes nothing but places and sizes. -/
theorem arrange_agrees (config : LayoutConfig α) (t : Tree α) : Agrees Node.bare t (Engine.arrange config t).1 := by
  have hsizes : Agrees Node.bare t (applyDefaultSizes config t.visiblePreOrder t) :=
    (applyDefaultSizes_agrees config _ t).view Node.unplaced (fun _ => rfl)
  have hplace : ∀ u, Agrees Node.bare u (place config t.visiblePreOrder u) :=
    fun u => (place_agrees config _ u).view Node.unsized (fun _ => rfl)
  have hresolve : ∀ u, Agrees Node.bare u (resolveOverlaps config t.visiblePreOrder u).1 :=
    fun u => (resolveOverlaps_agrees config _ u).view Node.bare (fun _ => rfl)
  exact (hsizes.trans (hplace _)).trans (hresolve _)

/-- The tree of a plan that is laid out is the tree rearranged. -/
theorem tree_layout (e : Engine α) (p : Plan α) : (e.layout p).2.1.tree = (Engine.arrange e.config p.tree).1 := by
  simp only [Engine.layout, Plan.advanceTo, Plan.advance]
  split <;> rfl

/-- Folding a node changes nothing but its flag. -/
theorem setCollapsed_agrees {α : Type} (t : Tree α) (id : NodeId) (value : Bool) :
    Agrees Node.unflagged t (t.setCollapsed id value) :=
  Agrees.modify t id _ (fun _ => rfl)

/-- Folding by itself changes nothing but flags. -/
theorem autoCollapse_agrees {α : Type} (target iterations : Nat) (t : Tree α) :
    Agrees Node.unflagged t (t.autoCollapse target iterations).1 := by
  induction iterations generalizing t with
  | zero => exact Agrees.refl _ t
  | succ iterations ih =>
    rw [Tree.autoCollapse]
    split
    · exact Agrees.refl _ t
    · split
      · exact Agrees.refl _ t
      · split
        · exact Agrees.refl _ t
        · rename_i id _
          exact (setCollapsed_agrees t id true).trans (ih _)

end Layout

end DaxPlan
