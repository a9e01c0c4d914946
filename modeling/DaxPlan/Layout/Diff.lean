import DaxPlan.Node

/-!
# Differences between layouts

What a renderer has to update after a layout: the nodes that have become visible or hidden, by id, and those that have moved, in
the order of the visible walk. All others are where they were.
-/

namespace DaxPlan.Layout

/-- A node that stayed visible and has moved. -/
structure Move (α : Type) where
  id : NodeId
  start : Point α
  finish : Point α
  deriving Repr

/-- The changes from one layout to the next. -/
structure Diff (α : Type) where
  entered : List NodeId
  exited : List NodeId
  moved : List (Move α)
  deriving Repr

variable {α : Type}

/-- Nothing to update. -/
def Diff.isEmpty (d : Diff α) : Bool := d.entered.isEmpty && d.exited.isEmpty && d.moved.isEmpty

/-- The set of visible nodes is another. -/
def Diff.changesVisibility (d : Diff α) : Bool := !d.entered.isEmpty || !d.exited.isEmpty

/-! ## Ids in order -/

/-- Ids in ascending order, each once. -/
def idSet (ids : List NodeId) : List NodeId := (ids.mergeSort (· ≤ ·)).eraseDups

theorem mem_idSet {ids : List NodeId} {id : NodeId} : id ∈ idSet ids ↔ id ∈ ids := by
  rw [idSet, List.mem_eraseDups, List.mem_mergeSort]

theorem pairwise_lt_eraseDups (n : Nat) (ids : List NodeId) (hn : ids.length ≤ n) (h : ids.Pairwise (· ≤ ·)) :
    ids.eraseDups.Pairwise (· < ·) := by
  induction n generalizing ids with
  | zero =>
    have hnil : ids = [] := List.length_eq_zero_iff.mp (by omega)
    subst hnil
    exact List.Pairwise.nil
  | succ n ih =>
    cases ids with
    | nil => exact List.Pairwise.nil
    | cons a ids =>
      obtain ⟨ha, hids⟩ := List.pairwise_cons.mp h
      have hlen := List.length_filter_le (fun b => !b == a) ids
      simp only [List.length_cons] at hn
      rw [List.eraseDups_cons]
      refine List.pairwise_cons.mpr ⟨fun b hb => ?_, ih _ (by omega) (hids.filter _)⟩
      obtain ⟨hb, hne⟩ := List.mem_filter.mp (List.mem_eraseDups.mp hb)
      have hne' : b ≠ a := by simpa using hne
      exact Nat.lt_of_le_of_ne (ha b hb) hne'.symm

theorem pairwise_lt_idSet (ids : List NodeId) : (idSet ids).Pairwise (· < ·) := by
  have htrans : ∀ a b c : NodeId, decide (a ≤ b) = true → decide (b ≤ c) = true → decide (a ≤ c) = true :=
    fun a b c hab hbc => decide_eq_true (Nat.le_trans (of_decide_eq_true hab) (of_decide_eq_true hbc))
  have htotal : ∀ a b : NodeId, (decide (a ≤ b) || decide (b ≤ a)) = true := by
    intro a b
    rw [Bool.or_eq_true, decide_eq_true_iff, decide_eq_true_iff]
    exact Nat.le_total a b
  have hsorted := List.pairwise_mergeSort htrans htotal ids
  exact pairwise_lt_eraseDups _ _ (Nat.le_refl _) (hsorted.imp (fun h => of_decide_eq_true h))

end DaxPlan.Layout
