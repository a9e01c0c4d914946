import DaxPlan.Proofs.Tree.Agreement
import Mathlib.Data.List.Perm.Basic
import Mathlib.Data.List.Infix
import Mathlib.Data.List.Nodup
import Mathlib.Data.List.Range

/-!
# Traversals with a stack, and bounded walks

`Tree.Visits` is the traversal that keeps its pending nodes on a stack; `Tree.walkFrom` goes down the links to a bounded depth.
A traversal that comes to an end is what a walk with a large enough bound lists (`Visits.flatMap_walkFrom`), so in a spanning
tree all walks are traversals and the bound does not show (`Spanning.subtree_spec`). A traversal that passes over some of the
links visits a part of the nodes, in the same order (`Visits.prune`): what is visible is such a part. One that takes the last of
the children first visits the same nodes in another order (`Visits.reversed`).
-/

namespace DaxPlan.Tree

variable {α : Type} {t t' : Tree α} {next next' : Node α → List NodeId} {s u v w : List NodeId} {i c : NodeId} {n : Node α}

/-- The nodes that a node at a place gives way to; none at a place without a node. -/
def nextAt (t : Tree α) (next : Node α → List NodeId) (id : NodeId) : List NodeId := ((t.get? id).map next).getD []

theorem nextAt_eq (h : t.get? i = some n) : t.nextAt next i = next n := by
  simp [nextAt, h]

/-! ## Traversals -/

namespace Visits

theorem nil_iff : t.Visits next [] v ↔ v = [] := by
  constructor
  · intro h
    cases h
    rfl
  · rintro rfl
    exact done

/-- The traversal of a stack starts with its top. -/
theorem cons_iff : t.Visits next (i :: s) v ↔ ∃ n w, t.get? i = some n ∧ v = i :: w ∧ t.Visits next (next n ++ s) w := by
  constructor
  · intro h
    cases h with
    | visit hn hw => exact ⟨_, _, hn, rfl, hw⟩
  · rintro ⟨n, w, hn, rfl, hw⟩
    exact visit hn hw

/-- What lies on top of a stack is traversed first. -/
theorem append_iff : t.Visits next (s ++ u) v ↔ ∃ a b, v = a ++ b ∧ t.Visits next s a ∧ t.Visits next u b := by
  constructor
  · intro h
    generalize hp : s ++ u = p at h
    induction h generalizing s with
    | done =>
      obtain ⟨rfl, rfl⟩ := List.append_eq_nil_iff.mp hp
      exact ⟨[], [], rfl, done, done⟩
    | @visit id n pending visited hn hv ih =>
      cases s with
      | nil =>
        rw [List.nil_append] at hp
        exact ⟨[], id :: visited, rfl, done, hp ▸ visit hn hv⟩
      | cons x s =>
        obtain ⟨rfl, rfl⟩ := List.cons.inj hp
        obtain ⟨a, b, rfl, ha, hb⟩ := ih (s := next n ++ s) (List.append_assoc _ _ _)
        exact ⟨x :: a, b, rfl, visit hn ha, hb⟩
  · rintro ⟨a, b, rfl, ha, hb⟩
    induction ha with
    | done => exact hb
    | visit hn _ ih =>
      rw [List.append_assoc] at ih
      exact visit hn ih

/-- The traversal from one node: the node, and then what it gives way to. -/
theorem singleton_iff : t.Visits next [i] v ↔ ∃ n w, t.get? i = some n ∧ v = i :: w ∧ t.Visits next (next n) w := by
  rw [cons_iff]
  simp only [List.append_nil]

/-- A traversal goes on with one more node, and what it gives way to. -/
theorem snoc {a : List NodeId} (ha : t.Visits next s a) (hn : t.get? i = some n) (hw : t.Visits next (next n) w) :
    t.Visits next (s ++ [i]) (a ++ i :: w) :=
  append_iff.mpr ⟨a, i :: w, rfl, ha, singleton_iff.mpr ⟨n, w, hn, rfl, hw⟩⟩

/-- Pending nodes are visited. -/
theorem pending_subset (h : t.Visits next s v) : s ⊆ v := by
  induction h with
  | done => exact List.Subset.refl _
  | visit _ _ ih =>
    refine List.cons_subset_cons _ ?_
    exact List.Subset.trans (List.subset_append_right _ _) ih

/-- Visited nodes are there. -/
theorem exists_node (h : t.Visits next s v) (hi : i ∈ v) : ∃ n, t.get? i = some n := by
  induction h with
  | done => exact absurd hi List.not_mem_nil
  | visit hn _ ih =>
    rcases List.mem_cons.mp hi with rfl | hi
    · exact ⟨_, hn⟩
    · exact ih hi

/-- What a node gives way to is visited after it. -/
theorem next_after {a b : List NodeId} (h : t.Visits next s (a ++ i :: b)) (hn : t.get? i = some n) (hc : c ∈ next n) :
    c ∈ b := by
  induction a generalizing s with
  | nil =>
    cases h with
    | visit hm hb =>
      rw [hn, Option.some.injEq] at hm
      subst hm
      exact pending_subset hb (List.mem_append_left _ hc)
  | cons x a ih =>
    cases h with
    | visit _ hb => exact ih hb

/-- What a visited node gives way to is visited. -/
theorem next_mem (h : t.Visits next s v) (hi : i ∈ v) (hn : t.get? i = some n) (hc : c ∈ next n) : c ∈ v := by
  obtain ⟨a, b, rfl⟩ := List.append_of_mem hi
  exact List.mem_append_right a (List.mem_cons_of_mem i (h.next_after hn hc))

/-- A node that gives way to another comes before it, if each node is visited once. -/
theorem before_next {a b : List NodeId} {p : NodeId} (h : t.Visits next s (a ++ i :: b)) (honce : (a ++ i :: b).Nodup)
    (hp : p ∈ a ++ i :: b) (hn : t.get? p = some n) (hi : i ∈ next n) : p ∈ a := by
  refine (List.mem_append.mp hp).resolve_right (fun hright => ?_)
  -- further on it would give way to the node once more
  obtain ⟨c, d, hcd⟩ := List.append_of_mem hright
  have hid : i ∈ d := by
    rw [hcd, ← List.append_assoc] at h
    exact h.next_after hn hi
  have hib : i ∈ b := by
    cases c with
    | nil =>
      obtain ⟨-, rfl⟩ := List.cons.inj hcd
      exact hid
    | cons x c =>
      obtain ⟨-, rfl⟩ := List.cons.inj hcd
      exact List.mem_append_right _ (List.mem_cons_of_mem _ hid)
  exact (List.nodup_cons.mp (List.nodup_append.mp honce).2.1).1 hib

/-- What holds of pending nodes and is handed down to what a node gives way to holds of all that is visited. -/
theorem downward (h : t.Visits next s v) {P : NodeId → Prop} (hs : ∀ i ∈ s, P i)
    (hnext : ∀ i n, t.get? i = some n → P i → ∀ c ∈ next n, P c) : ∀ i ∈ v, P i := by
  induction h with
  | done => exact hs
  | @visit id n pending visited hn _ ih =>
    have hid : P id := hs id List.mem_cons_self
    refine List.forall_mem_cons.mpr ⟨hid, ih (fun i hi => ?_)⟩
    rcases List.mem_append.mp hi with hi | hi
    · exact hnext id n hn hid i hi
    · exact hs i (List.mem_cons_of_mem id hi)

/-- The visited nodes are the pending ones and those that visited nodes give way to. -/
theorem perm (h : t.Visits next s v) : v.Perm (s ++ v.flatMap (t.nextAt next)) := by
  induction h with
  | done => exact List.Perm.refl _
  | @visit id n pending visited hn _ ih =>
    rw [List.flatMap_cons, nextAt_eq hn, List.cons_append]
    refine List.Perm.cons id (ih.trans ?_)
    rw [← List.append_assoc]
    exact List.Perm.append_right _ List.perm_append_comm

/-- From a visited node on a traversal goes on within the whole. -/
theorem infix_of_mem (h : t.Visits next s v) (hi : i ∈ v) : ∃ w, t.Visits next [i] w ∧ w <:+: v := by
  induction h with
  | done => exact absurd hi List.not_mem_nil
  | @visit id n pending visited hn hv ih =>
    rcases List.mem_cons.mp hi with rfl | hi
    · obtain ⟨a, b, rfl, ha, -⟩ := append_iff.mp hv
      exact ⟨i :: a, singleton_iff.mpr ⟨n, a, hn, rfl, ha⟩, ⟨[], b, rfl⟩⟩
    · obtain ⟨w, hw, hin⟩ := ih hi
      exact ⟨w, hw, hin.trans (List.suffix_cons id visited).isInfix⟩

/-- A traversal that passes over pending nodes and links visits a part of the nodes, in the same order. -/
theorem prune (h : t.Visits next s v) (hnext : ∀ n, (next' n).Sublist (next n)) (hu : u.Sublist s) :
    ∃ w, t.Visits next' u w ∧ w.Sublist v := by
  induction h generalizing u with
  | done =>
    have hnil := List.sublist_nil.mp hu
    subst hnil
    exact ⟨[], done, List.Sublist.refl _⟩
  | @visit id n pending visited hn _ ih =>
    cases hu with
    | cons _ hu =>
      obtain ⟨w, hw, hsub⟩ := ih (hu.trans (List.sublist_append_right _ _))
      exact ⟨w, hw, hsub.cons id⟩
    | cons_cons _ hu =>
      obtain ⟨w, hw, hsub⟩ := ih ((hnext n).append hu)
      exact ⟨id :: w, visit hn hw, hsub.cons_cons id⟩

/-- Where the last child goes on top of the stack and not the first, the same nodes are visited in another order. -/
theorem reversed (h : t.Visits next s v) : ∃ w, w.Perm v ∧ t.Visits (fun n => (next n).reverse) s.reverse w := by
  induction h with
  | done => exact ⟨[], List.Perm.refl _, Visits.done⟩
  | @visit id n pending visited hn _ ih =>
    obtain ⟨w, hperm, hw⟩ := ih
    rw [List.reverse_append] at hw
    obtain ⟨a, b, rfl, ha, hb⟩ := append_iff.mp hw
    rw [List.reverse_cons]
    exact ⟨a ++ id :: b, List.perm_middle.trans (hperm.cons id), ha.snoc hn hb⟩

/-- A traversal sees of a visited node only what it gives way to. -/
theorem congr (h : t.Visits next s v) (hv : ∀ i ∈ v, ∀ n, t.get? i = some n → ∃ n', t'.get? i = some n' ∧ next' n' = next n) :
    t'.Visits next' s v := by
  induction h with
  | done => exact done
  | visit hn _ ih =>
    obtain ⟨n', hn', hnext⟩ := hv _ List.mem_cons_self _ hn
    refine visit hn' ?_
    rw [hnext]
    exact ih (fun i hi => hv i (List.mem_cons_of_mem _ hi))

/-- A traversal is what walks with a large enough bound list. -/
theorem flatMap_walkFrom (h : t.Visits next s v) {d : Nat} (hd : v.length ≤ d) : s.flatMap (t.walkFrom next d) = v := by
  induction d generalizing s v with
  | zero =>
    have hv : v = [] := List.length_eq_zero_iff.mp (by omega)
    subst hv
    cases h
    rfl
  | succ d ih =>
    induction s generalizing v with
    | nil => exact (nil_iff.mp h).symm
    | cons id s ihs =>
      obtain ⟨n, w, hn, rfl, hw⟩ := cons_iff.mp h
      obtain ⟨a, b, rfl, ha, hb⟩ := append_iff.mp hw
      simp only [List.length_cons, List.length_append] at hd
      rw [List.flatMap_cons, walkFrom, hn, ihs hb (by omega)]
      simp only [ih ha (by omega), List.cons_append]

theorem walkFrom_eq (h : t.Visits next [i] v) {d : Nat} (hd : v.length ≤ d) : t.walkFrom next d i = v := by
  have hw := h.flatMap_walkFrom hd
  rwa [List.flatMap_singleton] at hw

/-- A walk whose bound does not show lists a node, and then what it lists from each that the node gives way to. -/
theorem walkFrom_eq_cons {d : Nat} (h : t.Visits next [i] (t.walkFrom next d i)) (hd : (t.walkFrom next d i).length ≤ d)
    (hn : t.get? i = some n) : t.walkFrom next d i = i :: (next n).flatMap (t.walkFrom next d) := by
  obtain ⟨m, w, hm, hw, hv⟩ := singleton_iff.mp h
  rw [hn, Option.some.injEq] at hm
  subst hm
  rw [hw, List.length_cons] at hd
  rw [hw, ← hv.flatMap_walkFrom (Nat.le_of_succ_le hd)]

/-- What a traversal from the root visits is the pre-order. -/
theorem preOrder_eq (h : t.Visits Node.children t.root.toList v) (hv : v.length ≤ t.size) : t.preOrder = v := by
  unfold preOrder
  cases hr : t.root with
  | none =>
    rw [hr] at h
    exact (nil_iff.mp h).symm
  | some r =>
    rw [hr] at h
    exact h.walkFrom_eq hv

end Visits

/-- Where there is no node a walk lists nothing. -/
theorem walkFrom_of_none (hn : t.get? i = none) (d : Nat) : t.walkFrom next d i = [] := by
  cases d with
  | zero => rfl
  | succ d => rw [walkFrom, hn]

/-- Walks go where the links lead. -/
theorem walkFrom_congr (h : Agrees next t t') (d : Nat) (id : NodeId) : t'.walkFrom next d id = t.walkFrom next d id := by
  induction d generalizing id with
  | zero => rfl
  | succ d ih =>
    have hid := h.2 id
    cases hn : t.get? id with
    | none =>
      rw [hn, Option.map_none, Option.map_eq_none_iff] at hid
      simp only [walkFrom, hn, hid]
    | some n =>
      obtain ⟨n', hn', hnext⟩ := h.get? hn
      simp only [walkFrom, hn, hn', hnext]
      rw [show walkFrom t' next d = walkFrom t next d from funext ih]

theorem parent?_congr (h : Agrees Node.parent t t') (id : NodeId) : t'.parent? id = t.parent? id := by
  have hjoin : ∀ o : Option (Node α), o.bind Node.parent = (o.map Node.parent).join := by
    intro o
    cases o <;> rfl
  rw [parent?, parent?, hjoin, hjoin, h.2 id]

theorem ancestors_congr (h : Agrees Node.parent t t') (id : NodeId) : t'.ancestors id = t.ancestors id := by
  rw [ancestors, ancestors, h.size_eq]
  generalize t.size = height
  induction height generalizing id with
  | zero => rfl
  | succ height ih =>
    rw [ancestorsUpTo, ancestorsUpTo, parent?_congr h]
    simp only [h.contains_eq, ih]

/-- The nodes with some ids tell the same in both trees. -/
theorem nodesAt_congr {β : Type} {f : Node α → β} (h : Agrees f t t') (ids : List NodeId) :
    (t'.nodesAt ids).map f = (t.nodesAt ids).map f := by
  unfold nodesAt
  rw [List.map_filterMap, List.map_filterMap, show (fun i => (t'.get? i).map f) = fun i => (t.get? i).map f from funext h.2]

theorem subtree_congr (h : Agrees Node.children t t') (id : NodeId) : t'.subtree id = t.subtree id := by
  rw [subtree, subtree, h.size_eq]
  exact walkFrom_congr h t.size id

theorem preOrder_congr (h : Agrees Node.children t t') : t'.preOrder = t.preOrder := by
  unfold preOrder
  rw [h.1]
  cases t.root with
  | none => rfl
  | some r => exact subtree_congr h r

theorem visibleSubtree_congr (h : Agrees Node.visibleChildren t t') (id : NodeId) :
    t'.visibleSubtree id = t.visibleSubtree id := by
  unfold visibleSubtree
  rw [h.size_eq]
  exact walkFrom_congr h t.size id

theorem visiblePreOrder_congr (h : Agrees Node.visibleChildren t t') : t'.visiblePreOrder = t.visiblePreOrder := by
  unfold visiblePreOrder
  rw [h.1]
  cases t.root with
  | none => rfl
  | some r => exact visibleSubtree_congr h r

/-- What a walk lists is there. -/
theorem exists_node_of_mem_walkFrom {d : Nat} {id : NodeId} (hi : i ∈ t.walkFrom next d id) : ∃ n, t.get? i = some n := by
  induction d generalizing id with
  | zero => exact absurd hi List.not_mem_nil
  | succ d ih =>
    rw [walkFrom] at hi
    cases hn : t.get? id with
    | none =>
      rw [hn] at hi
      exact absurd hi List.not_mem_nil
    | some n =>
      rw [hn] at hi
      rcases List.mem_cons.mp hi with rfl | hi
      · exact ⟨n, hn⟩
      · obtain ⟨c, -, hc⟩ := List.mem_flatMap.mp hi
        exact ih hc

end DaxPlan.Tree
