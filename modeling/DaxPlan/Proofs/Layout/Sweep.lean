import DaxPlan.Proofs.Layout.Frame
import Mathlib.Algebra.Order.Ring.Rat
import Mathlib.Tactic.Linarith

/-!
# One sweep over one level

A sweep looks at neighbours only, in the order from before its first shift, and still no two nodes of the level end up closer
than the gap by more than the tolerance, next to each other or not. The nodes up to the one the sweep stands at are clear of
each other (`Sweeping.clear`), and what carries this on is `Sweeping.front`: either every node behind has ended, gap included,
where the one at hand begins, or the one at hand was not shifted, and then no node that is still to come lies left of it.

Coordinates are rational numbers here.
-/

namespace DaxPlan.Layout

open DaxPlan.Tree

variable {config : LayoutConfig Rat} {t t' : Tree Rat} {a b id left right : NodeId} {ids done rest : List NodeId}

/-! ## Edges -/

/-- The right edge of a node, and the gap. -/
def reach (config : LayoutConfig Rat) (t : Tree Rat) (id : NodeId) : Rat := xOf t id + widthOf t id + config.horizontalSpacing

/-- A node begins where another one ends and the gap is over, or earlier by no more than the tolerance. -/
def Clear (config : LayoutConfig Rat) (t : Tree Rat) (a b : NodeId) : Prop :=
  reach config t a ≤ xOf t b + config.overlapTolerance

theorem deficit_eq (config : LayoutConfig Rat) (t : Tree Rat) (left right : NodeId) :
    deficit config t left right = reach config t left - xOf t right := rfl

theorem lt_tolerance_iff {gap : Rat} : Quantity.lt config.overlapTolerance gap = true ↔ config.overlapTolerance < gap :=
  decide_eq_true_iff

theorem widthOf_congr (h : Agrees Node.width t t') (id : NodeId) : widthOf t' id = widthOf t id := by
  unfold widthOf
  rw [h.2 id]

theorem widthOf_eq_of_agrees (h : Agrees Node.offX t t') (id : NodeId) : widthOf t' id = widthOf t id :=
  widthOf_congr (h.view Node.width (fun _ => rfl)) id

theorem visibleSubtree_eq_of_agrees (h : Agrees Node.offX t t') (id : NodeId) : t'.visibleSubtree id = t.visibleSubtree id :=
  visibleSubtree_congr (h.view Node.visibleChildren (fun _ => rfl)) id

/-! ## A shift -/

/-- A shift moves the visible subtree of a node, if it names no node twice, and nothing else. -/
theorem xOf_shiftSubtree (h : (t.visibleSubtree id).Nodup) (dx : Rat) (i : NodeId) :
    xOf (shiftSubtree t id dx) i = if i ∈ t.visibleSubtree id then xOf t i + dx else xOf t i := by
  have hget : (shiftSubtree t id dx).get? i =
      if i ∈ t.visibleSubtree id then (t.get? i).map (fun n => { n with x := n.x + dx }) else t.get? i :=
    get?_foldl_modify (fun _ n => { n with x := n.x + dx }) _ h t i
  unfold xOf
  rw [hget]
  by_cases hi : i ∈ t.visibleSubtree id
  · obtain ⟨n, hn⟩ := exists_node_of_mem_walkFrom hi
    simp only [hi, if_true, hn, Option.map_some, Option.getD_some]
  · simp only [hi, if_false]

/-- The nodes of a level: none lies in the visible subtree of another, and no visible subtree names a node twice. -/
structure Peers (t : Tree Rat) (ids : List NodeId) : Prop where
  nodup : ids.Nodup
  subtree_nodup : ∀ a ∈ ids, (t.visibleSubtree a).Nodup
  mem_subtree_iff : ∀ a ∈ ids, ∀ b ∈ ids, b ∈ t.visibleSubtree a ↔ b = a

theorem Peers.of_agrees (h : Peers t ids) (ha : Agrees Node.offX t t') : Peers t' ids := by
  refine ⟨h.nodup, fun a hm => ?_, fun a hm b hb => ?_⟩
  · rw [visibleSubtree_eq_of_agrees ha]
    exact h.subtree_nodup a hm
  · rw [visibleSubtree_eq_of_agrees ha]
    exact h.mem_subtree_iff a hm b hb

/-- A shift of a node moves no other node of its level. -/
theorem Peers.xOf_shift (h : Peers t ids) (ha : a ∈ ids) (hb : b ∈ ids) (dx : Rat) :
    xOf (shiftSubtree t a dx) b = if b = a then xOf t b + dx else xOf t b := by
  simp only [xOf_shiftSubtree (h.subtree_nodup a ha), h.mem_subtree_iff a ha b hb]

theorem Peers.reach_shift (h : Peers t ids) (ha : a ∈ ids) (hb : b ∈ ids) (hne : b ≠ a) (dx : Rat) :
    reach config (shiftSubtree t a dx) b = reach config t b := by
  unfold reach
  rw [h.xOf_shift ha hb, if_neg hne, widthOf_eq_of_agrees (shiftSubtree_agrees t a dx)]

/-! ## The sweep -/

/-- A sweep over a level stands at `left`, with `done` behind it and `rest` before it. -/
structure Sweeping (config : LayoutConfig Rat) (t : Tree Rat) (done : List NodeId) (left : NodeId) (rest : List NodeId) :
    Prop where
  clear : (done ++ [left]).Pairwise (Clear config t)
  sorted : rest.Pairwise (fun a b => xOf t a ≤ xOf t b)
  front : (∀ c ∈ done, reach config t c ≤ xOf t left) ∨
    ((∀ r ∈ rest, xOf t left ≤ xOf t r) ∧ ∀ c ∈ done, Clear config t c left)

/-- One more node at the end, to which all before it stand in the relation. -/
theorem pairwise_snoc {R : NodeId → NodeId → Prop} (h : (done ++ [left]).Pairwise R)
    (hr : ∀ c ∈ done ++ [left], R c right) : (done ++ [left] ++ [right]).Pairwise R := by
  refine List.pairwise_append.mpr ⟨h, List.pairwise_singleton R right, fun c hc r hr' => ?_⟩
  rw [List.mem_singleton.mp hr']
  exact hr c hc

/-- A node behind the one at hand ends no later than it does, or lies within the tolerance of where an unshifted one begins. -/
theorem Sweeping.reach_le (h : Sweeping config t done left rest) (hgap : 0 ≤ config.horizontalSpacing)
    (hw : 0 ≤ widthOf t left) {c : NodeId} (hc : c ∈ done) :
    reach config t c ≤ reach config t left ∨
      ((∀ r ∈ rest, xOf t left ≤ xOf t r) ∧ reach config t c ≤ xOf t left + config.overlapTolerance) := by
  rcases h.front with hfront | ⟨hrest, hclear⟩
  · left
    have h1 := hfront c hc
    have h2 : reach config t left = xOf t left + widthOf t left + config.horizontalSpacing := rfl
    linarith
  · exact Or.inr ⟨hrest, hclear c hc⟩

/-- The sweep goes on to a node that is close enough to where it should be, and leaves it there. -/
theorem Sweeping.keep (h : Sweeping config t done left (right :: rest)) (hgap : 0 ≤ config.horizontalSpacing)
    (hw : 0 ≤ widthOf t left) (hclose : ¬config.overlapTolerance < deficit config t left right) :
    Sweeping config t (done ++ [left]) right rest := by
  rw [deficit_eq] at hclose
  have hleft : Clear config t left right := by
    unfold Clear
    linarith
  have hclear : ∀ c ∈ done ++ [left], Clear config t c right := by
    intro c hc
    rcases List.mem_append.mp hc with hc | hc
    · unfold Clear at hleft ⊢
      rcases h.reach_le hgap hw hc with hle | ⟨hrest, hle⟩
      · linarith
      · have := hrest right List.mem_cons_self
        linarith
    · rw [List.mem_singleton.mp hc]
      exact hleft
  obtain ⟨hright, hsorted⟩ := List.pairwise_cons.mp h.sorted
  exact ⟨pairwise_snoc h.clear hclear, hsorted, Or.inr ⟨hright, hclear⟩⟩

/-- The sweep goes on to a node that is too close, and shifts it to where the one behind it ends. -/
theorem Sweeping.shift (h : Sweeping config t done left (right :: rest)) (hp : Peers t (done ++ left :: right :: rest))
    (hgap : 0 ≤ config.horizontalSpacing) (htol : 0 ≤ config.overlapTolerance) (hw : 0 ≤ widthOf t left)
    (hclose : config.overlapTolerance < deficit config t left right) :
    Sweeping config (shiftSubtree t right (deficit config t left right)) (done ++ [left]) right rest := by
  rw [deficit_eq] at hclose ⊢
  have hr : right ∈ done ++ left :: right :: rest := by simp
  have hnodup := List.nodup_append.mp hp.nodup
  have hmem : ∀ c ∈ done ++ [left], c ∈ done ++ left :: right :: rest ∧ c ≠ right := by
    intro c hc
    rcases List.mem_append.mp hc with hc | hc
    · exact ⟨List.mem_append_left _ hc, hnodup.2.2 c hc right (by simp)⟩
    · rw [List.mem_singleton.mp hc]
      refine ⟨by simp, fun e => ?_⟩
      have := (List.nodup_cons.mp hnodup.2.1).1
      exact this (by simp [e])
  have hrest : ∀ r ∈ rest, r ∈ done ++ left :: right :: rest ∧ r ≠ right := by
    intro r hm
    have := (List.nodup_cons.mp (List.nodup_cons.mp hnodup.2.1).2).1
    exact ⟨by simp [hm], fun e => this (e ▸ hm)⟩
  -- After the shift the node stands where the furthest one before it ends; the swept ones are not below it, so they stay.
  generalize hdx : reach config t left - xOf t right = dx at hclose
  have hx : xOf (shiftSubtree t right dx) right = reach config t left := by
    rw [hp.xOf_shift hr hr, if_pos rfl]
    linarith
  have hends : ∀ c ∈ done ++ [left], reach config (shiftSubtree t right dx) c ≤ xOf (shiftSubtree t right dx) right := by
    intro c hc
    obtain ⟨hcm, hne⟩ := hmem c hc
    rw [hp.reach_shift hr hcm hne, hx]
    rcases List.mem_append.mp hc with hc | hc
      -- Either `left` reaches furthest, or it was not shifted and `right` starts no further left than it.
    · rcases h.reach_le hgap hw hc with hle | ⟨hfront, hle⟩
      · exact hle
      · have := hfront right List.mem_cons_self
        linarith
    · rw [List.mem_singleton.mp hc]
  refine ⟨pairwise_snoc ?_ (fun c hc => ?_), ?_, Or.inl hends⟩
  · refine h.clear.imp_of_mem (fun {c d} hc hd hcd => ?_)
    unfold Clear
    rw [hp.reach_shift hr (hmem c hc).1 (hmem c hc).2, hp.xOf_shift hr (hmem d hd).1, if_neg (hmem d hd).2]
    exact hcd
  · unfold Clear
    have := hends c hc
    linarith
  · refine (List.pairwise_cons.mp h.sorted).2.imp_of_mem (fun {r s} hrm hsm hrs => ?_)
    rw [hp.xOf_shift hr (hrest r hrm).1, if_neg (hrest r hrm).2, hp.xOf_shift hr (hrest s hsm).1, if_neg (hrest s hsm).2]
    exact hrs

/-- A sweep that has begun ends with all nodes of the level clear of each other, in the order of the sweep. -/
theorem Sweeping.sweepLevel_clear (h : Sweeping config t done left rest) (hp : Peers t (done ++ left :: rest))
    (hgap : 0 ≤ config.horizontalSpacing) (htol : 0 ≤ config.overlapTolerance) (hw : ∀ a ∈ done ++ left :: rest, 0 ≤ widthOf t a)
    (shifts : Nat) : (done ++ left :: rest).Pairwise (Clear config (sweepLevel config (left :: rest) (t, shifts)).1) := by
  induction rest generalizing t done left shifts with
  | nil => exact h.clear
  | cons right rest ih =>
    have hassoc : done ++ left :: right :: rest = (done ++ [left]) ++ right :: rest := by simp
    have hwl : 0 ≤ widthOf t left := hw left (by simp)
    simp only [sweepLevel, lt_tolerance_iff]
    by_cases hclose : config.overlapTolerance < deficit config t left right
    · rw [if_pos hclose]
      have hagrees := shiftSubtree_agrees t right (deficit config t left right)
      have hp' := hp.of_agrees hagrees
      have hs := h.shift hp hgap htol hwl hclose
      rw [hassoc] at hp' hw ⊢
      exact ih hs hp' (fun a ha => by rw [widthOf_eq_of_agrees hagrees]; exact hw a ha) _
    · rw [if_neg hclose]
      have hs := h.keep hgap hwl hclose
      rw [hassoc] at hp hw ⊢
      exact ih hs hp hw _

end DaxPlan.Layout
