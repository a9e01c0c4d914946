import DaxPlan.Proofs.Tree.Spanning
import Mathlib.Data.List.Count

/-!
# Parents and ancestors

In a spanning tree whose parent links match its children lists, every node but the root is listed once, by its parent alone
(`Spanning.listed_once`), so there is one link fewer than there are nodes (`Spanning.edgeCount_eq`). A parent comes before its
children in the pre-order (`Spanning.parent_before`), which is why going up from parent to parent comes to the root within the
bound: above a child lies its parent, and what lies above the parent (`Spanning.ancestors_child`). So what is above nodes is told
by an induction from the root down (`Spanning.from_root`).

The way from the root to a node is met in that order in the pre-order (`Spanning.path_sublist`), and a node lies below those that
are on its way (`Spanning.mem_subtree_iff`). So the last node of the pre-order that has something to do with a node below it is
the nearest one on its way up (`WellFormed.getLast?_filter`).
-/

namespace DaxPlan.Tree

variable {α : Type} {t : Tree α} {i j p q r : NodeId} {n m k : Node α}

/-! ## Links -/

theorem parent?_eq (h : t.get? i = some n) : t.parent? i = n.parent := by
  simp [parent?, h]

theorem Linked.child_parent (hl : t.Linked) (hp : t.get? p = some m) (hi : i ∈ m.children) (hn : t.get? i = some n) :
    n.parent = some p :=
  (hl i n p hn).mpr ⟨m, hp, hi⟩

theorem contains_iff : t.contains i ↔ i < t.size := decide_eq_true_iff

theorem ancestorsUpTo_child (hp : t.parent? i = some p) (hsize : p < t.size) (d : Nat) :
    t.ancestorsUpTo (d + 1) i = p :: t.ancestorsUpTo d p := by
  rw [ancestorsUpTo, hp]
  exact if_pos (contains_iff.mpr hsize)

theorem ancestorsUpTo_of_parent_none (hp : t.parent? i = none) (d : Nat) : t.ancestorsUpTo d i = [] := by
  cases d with
  | zero => rfl
  | succ d => rw [ancestorsUpTo, hp]

/-- Where there is no node nothing lies above. -/
theorem ancestors_of_none (hn : t.get? i = none) : t.ancestors i = [] :=
  ancestorsUpTo_of_parent_none (by simp [parent?, hn]) t.size

/-- What has something above it is there. -/
theorem lt_size_of_mem_ancestors (hi : i ∈ t.ancestors j) : j < t.size := by
  cases hn : t.get? j with
  | none =>
    rw [ancestors_of_none hn] at hi
    exact absurd hi List.not_mem_nil
  | some n => exact lt_size_iff.mpr ⟨n, hn⟩

/-- What lies above something is there. -/
theorem exists_node_of_mem_ancestors (hi : i ∈ t.ancestors j) : ∃ n, t.get? i = some n := by
  rw [ancestors] at hi
  generalize t.size = height at hi
  induction height generalizing j with
  | zero => exact absurd hi List.not_mem_nil
  | succ height ih =>
    rw [ancestorsUpTo] at hi
    split at hi
    · exact absurd hi List.not_mem_nil
    · split at hi
      · rename_i p _ hp
        rcases List.mem_cons.mp hi with rfl | hi
        · exact lt_size_iff.mp (contains_iff.mp hp)
        · exact ih hi
      · exact absurd hi List.not_mem_nil

theorem path_eq (hn : t.get? i = some n) : t.path i = (t.ancestors i).reverse ++ [i] :=
  if_pos (contains_iff.mpr (lt_size_iff.mpr ⟨n, hn⟩))

namespace Spanning

/-- A node is the root or is listed by some node, in all once. -/
theorem count_links (h : t.Spanning) (hi : i < t.size) :
    t.root.toList.count i + (t.preOrder.flatMap (t.nextAt Node.children)).count i = 1 := by
  rw [← List.count_append, ← h.traversal.perm.count_eq]
  exact List.count_eq_one_of_mem h.once (h.reached i hi)

theorem count_children_le (h : t.Spanning) (hp : t.get? p = some m) :
    m.children.count i ≤ (t.preOrder.flatMap (t.nextAt Node.children)).count i := by
  have hmem : p ∈ t.preOrder := h.reached p (lt_size_iff.mpr ⟨m, hp⟩)
  obtain ⟨a, b, hab⟩ := List.append_of_mem hmem
  rw [hab, List.flatMap_append, List.flatMap_cons, List.count_append, List.count_append, nextAt_eq hp]
  omega

theorem root_lt_size (h : t.Spanning) (hr : t.root = some r) : r < t.size :=
  h.lt_size_of_mem (h.traversal.pending_subset (by simp [hr]))

/-- No node lists the root. -/
theorem root_not_listed (h : t.Spanning) (hr : t.root = some r) (hp : t.get? p = some m) : r ∉ m.children := by
  intro hmem
  have hone := h.count_links (h.root_lt_size hr)
  have hroot : t.root.toList.count r = 1 := by simp [hr]
  have hle := h.count_children_le (i := r) hp
  have hpos := List.count_pos_iff.mpr hmem
  omega

/-- The root has no parent. -/
theorem root_parent (h : t.Spanning) (hl : t.Linked) (hr : t.root = some r) (hn : t.get? r = some n) : n.parent = none := by
  cases hp : n.parent with
  | none => rfl
  | some p =>
    obtain ⟨m, hm, hmem⟩ := (hl r n p hn).mp hp
    exact absurd hmem (h.root_not_listed hr hm)

/-- Every node but the root is listed once, by its parent, and by no other node. -/
theorem listed_once (h : t.Spanning) (hl : t.Linked) (hn : t.get? i = some n) (hi : t.root ≠ some i) :
    ∃ p m, n.parent = some p ∧ t.get? p = some m ∧ m.children.count i = 1 ∧
      ∀ q k, t.get? q = some k → i ∈ k.children → q = p := by
  have hlinks := h.count_links (lt_size_iff.mpr ⟨n, hn⟩)
  have hroot : t.root.toList.count i = 0 := by
    rw [List.count_eq_zero, Option.mem_toList]
    exact hi
  have hmem : i ∈ t.preOrder.flatMap (t.nextAt Node.children) := List.count_pos_iff.mp (by omega)
  obtain ⟨p, hp, hip⟩ := List.mem_flatMap.mp hmem
  obtain ⟨m, hm⟩ := h.traversal.exists_node hp
  rw [nextAt_eq hm] at hip
  have hparent := hl.child_parent hm hip hn
  refine ⟨p, m, hparent, hm, ?_, fun q k hq hiq => ?_⟩
  · have hle := h.count_children_le (i := i) hm
    have hpos := List.count_pos_iff.mpr hip
    omega
  · have hq' := hl.child_parent hq hiq hn
    rw [hparent, Option.some.injEq] at hq'
    exact hq'.symm

/-- There is one link fewer than there are nodes. -/
theorem edgeCount_eq (h : t.Spanning) : t.edgeCount + t.root.toList.length = t.size := by
  have htotal : ∀ ids : List NodeId, (∀ i ∈ ids, ∃ n, t.get? i = some n) →
      Number.total ((t.nodesAt ids).map (·.children.length)) = (ids.flatMap (t.nextAt Node.children)).length := by
    intro ids hids
    induction ids with
    | nil => rfl
    | cons i ids ih =>
      obtain ⟨n, hn⟩ := hids i List.mem_cons_self
      have hrest := ih (fun j hj => hids j (List.mem_cons_of_mem _ hj))
      rw [nodesAt] at hrest ⊢
      rw [List.filterMap_cons, hn, List.map_cons, Number.total_cons, hrest, List.flatMap_cons, List.length_append, nextAt_eq hn]
  have hperm := h.traversal.perm.length_eq
  rw [h.length_preOrder, List.length_append] at hperm
  rw [edgeCount, htotal _ (fun i hi => h.traversal.exists_node hi)]
  omega

/-- A tree with a node has a root. -/
theorem exists_root (h : t.Spanning) (hi : i < t.size) : ∃ r, t.root = some r := by
  cases hr : t.root with
  | none =>
    have hmem := h.reached i hi
    rw [preOrder, hr] at hmem
    exact absurd hmem List.not_mem_nil
  | some r => exact ⟨r, rfl⟩

/-- A parent comes before its children in the pre-order. -/
theorem parent_before (h : t.Spanning) (hl : t.Linked) {a b : List NodeId} (hab : t.preOrder = a ++ i :: b)
    (hp : t.parent? i = some p) : p ∈ a := by
  obtain ⟨n, hn⟩ := h.traversal.exists_node (hab ▸ List.mem_append_right a List.mem_cons_self)
  rw [parent?_eq hn] at hp
  obtain ⟨m, hm, hi⟩ := (hl i n p hn).mp hp
  have hpmem : p ∈ t.preOrder := h.reached p (lt_size_iff.mpr ⟨m, hm⟩)
  have htraversal := h.traversal
  have honce := h.once
  rw [hab] at hpmem htraversal honce
  exact htraversal.before_next honce hpmem hm hi

end Spanning

/-! ## The way to the root -/

theorem filter_nodesAt (t : Tree α) (ids : List NodeId) (f : Node α → Bool) :
    (t.nodesAt ids).filter f = t.nodesAt (ids.filter (fun i => (t.get? i).any f)) := by
  rw [nodesAt, nodesAt, List.filter_filterMap, List.filterMap_filter]
  refine List.filterMap_congr (fun i _ => ?_)
  cases t.get? i <;> rfl

/-- What a part of a list holds of those with a property, the whole list holds, if all of them are in the part. -/
theorem filter_eq_of_sublist {γ : Type} {xs ys : List γ} (h : xs.Sublist ys) (hys : ys.Nodup) {f : γ → Bool}
    (hf : ∀ x ∈ ys, f x = true → x ∈ xs) : ys.filter f = xs.filter f := by
  induction h with
  | slnil => rfl
  | @cons xs ys y h ih =>
    obtain ⟨hy, hys⟩ := List.nodup_cons.mp hys
    have hfy : ¬f y = true := fun hfy => hy (h.subset (hf y List.mem_cons_self hfy))
    rw [List.filter_cons_of_neg hfy]
    exact ih hys (fun x hx => hf x (List.mem_cons_of_mem y hx))
  | @cons_cons xs ys y h ih =>
    obtain ⟨hy, hys⟩ := List.nodup_cons.mp hys
    have hrest := ih hys (fun x hx hfx => ?_)
    · rw [List.filter_cons, List.filter_cons, hrest]
    · refine (List.mem_cons.mp (hf x (List.mem_cons_of_mem y hx) hfx)).resolve_left (fun he => hy ?_)
      exact he ▸ hx

namespace Spanning

/-- What holds of the root and is handed down to children holds of every node. -/
theorem from_root (h : t.Spanning) {P : NodeId → Prop} (root : ∀ r, t.root = some r → P r)
    (child : ∀ i n, t.get? i = some n → P i → ∀ c ∈ n.children, P c) : ∀ i, i < t.size → P i :=
  fun i hi => h.traversal.downward (fun r hr => root r (Option.mem_toList.mp hr)) child i (h.reached i hi)

theorem parent?_child (h : t.Spanning) (hl : t.Linked) (hn : t.get? i = some n) (hj : j ∈ n.children) : t.parent? j = some i := by
  obtain ⟨m, hm⟩ := lt_size_iff.mp (h.child_lt_size hn hj)
  rw [parent?_eq hm, hl.child_parent hn hj hm]

/-- Going up takes no more steps than there are nodes before a node, so a higher bound does not show. -/
theorem ancestorsUpTo_eq (h : t.Spanning) (hl : t.Linked) {a b : List NodeId} (hab : t.preOrder = a ++ i :: b) {d d' : Nat}
    (hd : a.length ≤ d) (hd' : a.length ≤ d') : t.ancestorsUpTo d i = t.ancestorsUpTo d' i := by
  induction d generalizing d' i a b with
  | zero =>
    cases hp : t.parent? i with
    | none => rw [ancestorsUpTo_of_parent_none hp, ancestorsUpTo_of_parent_none hp]
    | some p =>
      have hpa := List.length_pos_of_mem (h.parent_before hl hab hp)
      omega
  | succ d ih =>
    cases hp : t.parent? i with
    | none => rw [ancestorsUpTo_of_parent_none hp, ancestorsUpTo_of_parent_none hp]
    | some p =>
      obtain ⟨a, b', rfl⟩ := List.append_of_mem (h.parent_before hl hab hp)
      have hsplit : t.preOrder = a ++ p :: (b' ++ i :: b) := by rw [hab, List.append_assoc, List.cons_append]
      have hsize : p < t.size := h.lt_size_of_mem (hsplit ▸ List.mem_append_right a List.mem_cons_self)
      rw [List.length_append, List.length_cons] at hd hd'
      obtain ⟨d', rfl⟩ := Nat.exists_eq_succ_of_ne_zero (n := d') (by omega)
      rw [ancestorsUpTo_child hp hsize, ancestorsUpTo_child hp hsize]
      exact congrArg (p :: ·) (ih hsplit (by omega) (by omega))

theorem ancestors_root (h : t.Spanning) (hl : t.Linked) (hr : t.root = some r) : t.ancestors r = [] := by
  obtain ⟨n, hn⟩ := lt_size_iff.mp (h.root_lt_size hr)
  exact ancestorsUpTo_of_parent_none (by rw [parent?_eq hn, h.root_parent hl hr hn]) t.size

/-- Above a child lies its parent, and what lies above the parent. -/
theorem ancestors_child (h : t.Spanning) (hl : t.Linked) (hn : t.get? i = some n) (hj : j ∈ n.children) :
    t.ancestors j = i :: t.ancestors i := by
  have hparent := h.parent?_child hl hn hj
  obtain ⟨a, b, hab⟩ := List.append_of_mem (h.reached j (h.child_lt_size hn hj))
  obtain ⟨a, b', rfl⟩ := List.append_of_mem (h.parent_before hl hab hparent)
  have hsize := h.length_preOrder
  rw [hab, List.length_append, List.length_append, List.length_cons, List.length_cons] at hsize
  obtain ⟨d, hd⟩ := Nat.exists_eq_succ_of_ne_zero (n := t.size) (by omega)
  have hup : t.ancestorsUpTo d i = t.ancestorsUpTo t.size i := by
    refine h.ancestorsUpTo_eq hl (a := a) (b := b' ++ j :: b) ?_ (by omega) (by omega)
    rw [hab, List.append_assoc, List.cons_append]
  rw [ancestors, ancestors, ← hup, hd, Nat.succ_eq_add_one, ancestorsUpTo_child hparent (lt_size_iff.mpr ⟨n, hn⟩)]

/-- The way to the root itself. -/
theorem path_root (h : t.Spanning) (hl : t.Linked) (hr : t.root = some r) : t.path r = [r] := by
  obtain ⟨n, hn⟩ := lt_size_iff.mp (h.root_lt_size hr)
  rw [path_eq hn, h.ancestors_root hl hr]
  rfl

/-- The way to a child goes by its parent. -/
theorem path_child (h : t.Spanning) (hl : t.Linked) (hn : t.get? i = some n) (hj : j ∈ n.children) :
    t.path j = t.path i ++ [j] := by
  obtain ⟨m, hm⟩ := lt_size_iff.mp (h.child_lt_size hn hj)
  rw [path_eq hn, path_eq hm, h.ancestors_child hl hn hj, List.reverse_cons]

/-! ### The way in the pre-order -/

/-- The nodes on the way to a node stand in the pre-order up to it, in the order of the way. -/
theorem path_sublist (h : t.Spanning) (hl : t.Linked) (hi : i < t.size) :
    ∀ a b, t.preOrder = a ++ i :: b → (t.path i).Sublist (a ++ [i]) := by
  refine h.from_root (P := fun i => ∀ a b, t.preOrder = a ++ i :: b → (t.path i).Sublist (a ++ [i]))
    (fun r hr a b _ => ?_) (fun i n hn ih c hc a b hab => ?_) i hi
  · rw [h.path_root hl hr]
    exact List.sublist_append_right a [r]
  · obtain ⟨a, b', rfl⟩ := List.append_of_mem (h.parent_before hl hab (h.parent?_child hl hn hc))
    have hup := ih a (b' ++ c :: b) (by rw [hab, List.append_assoc, List.cons_append])
    rw [h.path_child hl hn hc, List.append_cons a i b']
    exact (hup.trans (List.sublist_append_left _ b')).append (List.Sublist.refl [c])

theorem path_sublist_preOrder (h : t.Spanning) (hl : t.Linked) (hi : i < t.size) : (t.path i).Sublist t.preOrder := by
  obtain ⟨a, b, hab⟩ := List.append_of_mem (h.reached i hi)
  rw [hab, List.append_cons]
  exact (h.path_sublist hl hi a b hab).trans (List.sublist_append_left _ b)

/-- A node lies below those that are on its way. -/
theorem mem_subtree_iff (h : t.Spanning) (hl : t.Linked) (hi : i < t.size) : j ∈ t.subtree i ↔ i ∈ t.path j := by
  have hwalk := (h.subtree_spec hi).1
  constructor
  · refine hwalk.downward (P := fun j => i ∈ t.path j) (fun j hj => ?_) (fun j m hm hj c hc => ?_) j
    · obtain ⟨n, hn⟩ := lt_size_iff.mp hi
      rw [List.mem_singleton.mp hj, path_eq hn]
      exact List.mem_append_right _ List.mem_cons_self
    · rw [h.path_child hl hm hc]
      exact List.mem_append_left _ hj
  · intro hpath
    have hj : j < t.size := by
      rw [path] at hpath
      split at hpath
      · exact contains_iff.mp ‹_›
      · exact absurd hpath List.not_mem_nil
    refine h.from_root (P := fun j => i ∈ t.path j → j ∈ t.subtree i) (fun r hr hpath => ?_) (fun j m hm ih c hc hpath => ?_)
      j hj hpath
    · rw [h.path_root hl hr, List.mem_singleton] at hpath
      exact hpath ▸ hwalk.pending_subset List.mem_cons_self
    · rw [h.path_child hl hm hc] at hpath
      rcases List.mem_append.mp hpath with hpath | hpath
      · exact hwalk.next_mem (ih hpath) hm hc
      · exact List.mem_singleton.mp hpath ▸ hwalk.pending_subset List.mem_cons_self

/-! ### What lies above and below -/

/-- No node is above itself. -/
theorem not_mem_ancestors (h : t.Spanning) (hl : t.Linked) (i : NodeId) : i ∉ t.ancestors i := by
  intro hi
  obtain ⟨n, hn⟩ := lt_size_iff.mp (lt_size_of_mem_ancestors hi)
  have honce := h.once.sublist (h.path_sublist_preOrder hl (lt_size_of_mem_ancestors hi))
  rw [path_eq hn, List.nodup_append] at honce
  exact honce.2.2 i (List.mem_reverse.mpr hi) i List.mem_cons_self rfl

/-- Strictly below a node lie the nodes that it is above. -/
theorem mem_descendants_iff (h : t.Spanning) (hl : t.Linked) (hi : i < t.size) : j ∈ t.descendants i ↔ i ∈ t.ancestors j := by
  obtain ⟨-, below, -, hbelow, -⟩ := Visits.singleton_iff.mp (h.subtree_spec hi).1
  have honce := h.nodup_subtree hi
  have hsub := h.mem_subtree_iff hl (j := j) hi
  rw [hbelow, List.nodup_cons] at honce
  rw [hbelow, List.mem_cons] at hsub
  rw [descendants, hbelow, List.tail_cons]
  cases hm : t.get? j with
  | none =>
    have hpath : t.path j = [] := if_neg (fun hj => by simpa [hm] using lt_size_iff.mp (contains_iff.mp hj))
    rw [hpath] at hsub
    rw [ancestors_of_none hm]
    exact ⟨fun hj => absurd (hsub.mp (Or.inr hj)) List.not_mem_nil, fun hj => absurd hj List.not_mem_nil⟩
  | some m =>
    rw [path_eq hm, List.mem_append, List.mem_reverse, List.mem_singleton] at hsub
    constructor
    · intro hj
      refine (hsub.mp (Or.inr hj)).resolve_right (fun he => honce.1 (he ▸ hj))
    · intro hij
      refine (hsub.mpr (Or.inl hij)).resolve_left (fun he => ?_)
      exact h.not_mem_ancestors hl i (he ▸ hij)

/-- What lies above a node that another is above: nodes between the two, the other one, and what lies above that. -/
theorem ancestors_through (h : t.Spanning) (hl : t.Linked) (hij : i ∈ t.ancestors j) :
    ∃ between, t.ancestors j = between ++ i :: t.ancestors i ∧ ∀ k ∈ between, i ∈ t.ancestors k := by
  refine h.from_root (P := fun j => i ∈ t.ancestors j →
    ∃ between, t.ancestors j = between ++ i :: t.ancestors i ∧ ∀ k ∈ between, i ∈ t.ancestors k)
    (fun r hr hir => ?_) (fun j m hm ih c hc hic => ?_) j (lt_size_of_mem_ancestors hij) hij
  · rw [h.ancestors_root hl hr] at hir
    exact absurd hir List.not_mem_nil
  · rw [h.ancestors_child hl hm hc] at hic ⊢
    rcases List.mem_cons.mp hic with rfl | hij
    · exact ⟨[], rfl, fun _ hk => absurd hk List.not_mem_nil⟩
    · obtain ⟨between, hsplit, hbetween⟩ := ih hij
      exact ⟨j :: between, by rw [hsplit, List.cons_append], List.forall_mem_cons.mpr ⟨hij, hbetween⟩⟩

end Spanning

namespace WellFormed

/-- The way to a node starts at the root, ends at the node, and has one element for each level. -/
theorem path_spec (h : t.WellFormed) (hn : t.get? i = some n) :
    (t.path i).head? = t.root ∧ (t.path i).getLast? = some i ∧ (t.path i).length = n.depth + 1 := by
  have hlen : ∀ n, t.get? i = some n → (t.path i).head? = t.root ∧ (t.path i).length = n.depth + 1 := by
    refine h.from_root (P := fun i => ∀ n, t.get? i = some n → (t.path i).head? = t.root ∧ (t.path i).length = n.depth + 1)
      (fun r hr n hn => ?_) (fun i m hm ih c hc n hn => ?_) i (lt_size_iff.mpr ⟨n, hn⟩)
    · rw [h.path_root h.linked hr, h.root_depth r n hr hn, hr]
      exact ⟨rfl, rfl⟩
    · obtain ⟨hhead, hlen⟩ := ih m hm
      rw [h.path_child h.linked hm hc, h.leveled i m c n hm hc hn, List.length_append, hlen]
      exact ⟨by rw [List.head?_append_of_ne_nil _ (List.ne_nil_of_length_pos (by omega)), hhead], rfl⟩
  refine ⟨(hlen n hn).1, ?_, (hlen n hn).2⟩
  rw [path_eq hn]
  exact List.getLast?_concat

/-- The last node in pre-order with a property that only a node and those above it have: the node itself, or else the nearest
one above it. -/
theorem getLast?_filter (h : t.WellFormed) (hn : t.get? j = some n) {f : Node α → Bool}
    (hf : ∀ i m, t.get? i = some m → f m = true → i ∈ t.path j) :
    ((t.nodesAt t.preOrder).filter f).getLast? = if f n then some n else (t.nodesAt (t.ancestors j)).find? f := by
  have hway : t.preOrder.filter (fun i => (t.get? i).any f) = (t.path j).filter (fun i => (t.get? i).any f) := by
    refine filter_eq_of_sublist (h.path_sublist_preOrder h.linked (lt_size_iff.mpr ⟨n, hn⟩)) h.once (fun i _ hi => ?_)
    obtain ⟨m, hm, hfm⟩ := (Option.any_eq_true _ _).mp hi
    exact hf i m hm hfm
  have hnodes : t.nodesAt (t.path j) = (t.nodesAt (t.ancestors j)).reverse ++ [n] := by
    rw [path_eq hn, nodesAt, List.filterMap_append, List.filterMap_reverse, List.filterMap_cons_some hn]
    rfl
  rw [filter_nodesAt, hway, ← filter_nodesAt, hnodes, List.filter_append, List.filter_singleton, List.filter_reverse]
  cases f n with
  | true => exact List.getLast?_concat
  | false =>
    rw [cond_false, List.append_nil, List.getLast?_reverse, List.head?_filter]
    rfl

end WellFormed

end DaxPlan.Tree
