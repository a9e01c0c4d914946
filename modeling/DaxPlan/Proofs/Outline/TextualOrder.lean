import DaxPlan.Proofs.Outline.ParentRule
import DaxPlan.Proofs.Tree.Ancestry

/-!
# Textual order

The tree of a plan text is well-formed, and walked depth first its nodes come in the order of the lines
(`ofText_textual_order`). Rows are added at the end of the text and must come at the end of the walk, whatever their levels: a
new node is last in the walk if it becomes the last child of a node on the `Spine` of the tree, the way down along last children.
All that a branch remembers lies on the spine, in that order (`Ordered`); what a row makes the branch forget it leaves behind
for good.
-/

namespace DaxPlan

open DaxPlan.Tree

variable {α : Type} {t t' : Tree α} {i k p : NodeId} {n : Node α} {s v c : List NodeId}

/-! ## The spine -/

/-- Nodes on the way down from some siblings along last children. The way may stop anywhere. -/
inductive Tree.Spine (t : Tree α) : List NodeId → List NodeId → Prop where
  | stop {siblings : List NodeId} : Spine t siblings []
  | down {i : NodeId} {n : Node α} {siblings chain : List NodeId} :
      t.get? i = some n → Spine t n.children chain → Spine t (siblings ++ [i]) (i :: chain)

/-- One node more than before: a last child of another, without children itself. -/
structure Tree.Grafted (t t' : Tree α) (p k : NodeId) : Prop where
  new : ∃ n, t'.get? k = some n ∧ n.children = []
  parent : ∀ n, t.get? p = some n → ∃ n', t'.get? p = some n' ∧ n'.children = n.children ++ [k]
  others : ∀ i, i ≠ p → ∀ n, t.get? i = some n → ∃ n', t'.get? i = some n' ∧ n'.children = n.children

namespace Tree

/-- The beginning of a last branch is one. -/
theorem Spine.shorten (h : t.Spine s c) {c' : List NodeId} (hc : c' <+: c) : t.Spine s c' := by
  induction h generalizing c' with
  | stop =>
    rw [List.prefix_nil.mp hc]
    exact Spine.stop
  | down hn _ ih =>
    cases c' with
    | nil => exact Spine.stop
    | cons x c' =>
      obtain ⟨rfl, hc'⟩ := List.cons_prefix_cons.mp hc
      exact Spine.down hn (ih hc')

/-- A traversal ends with the node on the spine and what comes below it. -/
theorem Spine.visits_last (h : t.Spine s (i :: c)) (hv : t.Visits Node.children s v) :
    ∃ n, t.get? i = some n ∧ ∃ siblings a w, s = siblings ++ [i] ∧ v = a ++ i :: w ∧ t.Visits Node.children siblings a ∧
      t.Visits Node.children n.children w ∧ t.Spine n.children c := by
  cases h with
  | down hn hrest =>
    obtain ⟨a, b, rfl, ha, hb⟩ := Visits.append_iff.mp hv
    obtain ⟨m, w, hm, rfl, hw⟩ := Visits.singleton_iff.mp hb
    rw [hn, Option.some.injEq] at hm
    subst hm
    exact ⟨_, hn, _, a, w, rfl, rfl, ha, hw, hrest⟩

/-- What lies on the spine of pending nodes is visited. -/
theorem Spine.subset (h : t.Spine s c) (hv : t.Visits Node.children s v) : c ⊆ v := by
  induction c generalizing s v with
  | nil => exact List.nil_subset v
  | cons i c ih =>
    obtain ⟨n, -, siblings, a, w, rfl, rfl, -, hw, hrest⟩ := h.visits_last hv
    exact List.Subset.trans (List.cons_subset_cons i (ih hrest hw)) (List.subset_append_right a _)

/-- Away from the parent, a traversal does not notice a graft. -/
theorem Grafted.visits (h : t.Grafted t' p k) (hv : t.Visits Node.children s v) (hp : p ∉ v) : t'.Visits Node.children s v :=
  hv.congr (fun i hi n hn => h.others i (fun e => hp (e ▸ hi)) n hn)

/-- A node that was grafted is visited alone. -/
theorem Grafted.visits_new (h : t.Grafted t' p k) : t'.Visits Node.children [k] [k] := by
  obtain ⟨n, hn, hc⟩ := h.new
  refine Visits.singleton_iff.mpr ⟨n, [], hn, rfl, ?_⟩
  rw [hc]
  exact Visits.done

/-- A node that is grafted below the end of the spine comes last in the traversal, and ends the spine. -/
theorem Grafted.extend (h : t.Grafted t' p k) {chain : List NodeId} (hs : t.Spine s (chain ++ [p]))
    (hv : t.Visits Node.children s v) (hnodup : v.Nodup) :
    t'.Visits Node.children s (v ++ [k]) ∧ t'.Spine s (chain ++ [p, k]) := by
  -- The spine is what the traversal goes down last, so at each of its nodes the new one comes after everything below.
  induction chain generalizing s v with
  | nil =>
    obtain ⟨n, hn, siblings, a, w, rfl, rfl, ha, hw, -⟩ := hs.visits_last hv
    have hp := (List.nodup_cons.mp (List.nodup_middle.mp hnodup)).1
    have hpa : p ∉ a := fun hpa => hp (List.mem_append_left w hpa)
    have hpw : p ∉ w := fun hpw => hp (List.mem_append_right a hpw)
    obtain ⟨n', hn', hc⟩ := h.parent n hn
    have hend : t'.Visits Node.children n'.children (w ++ [k]) := by
      rw [hc]
      exact Visits.append_iff.mpr ⟨w, [k], rfl, h.visits hw hpw, h.visits_new⟩
    refine ⟨?_, Spine.down hn' ?_⟩
    · rw [List.append_assoc]
      exact (h.visits ha hpa).snoc hn' hend
    · obtain ⟨m, hm, -⟩ := h.new
      rw [hc]
      exact Spine.down hm Spine.stop
  | cons x chain ih =>
    obtain ⟨n, hn, siblings, a, w, rfl, rfl, ha, hw, hrest⟩ := hs.visits_last hv
    obtain ⟨hx, hrestnodup⟩ := List.nodup_cons.mp (List.nodup_middle.mp hnodup)
    obtain ⟨-, hwnodup, hdisjoint⟩ := List.nodup_append.mp hrestnodup
    have hpw : p ∈ w := hrest.subset hw (List.mem_append_right chain List.mem_cons_self)
    have hpa : p ∉ a := fun hpa => hdisjoint p hpa p hpw rfl
    obtain ⟨n', hn', hc⟩ := h.others x (fun e => hx (List.mem_append_right a (e ▸ hpw))) n hn
    obtain ⟨hvisits, hspine⟩ := ih hrest hw hwnodup
    rw [← hc] at hvisits hspine
    refine ⟨?_, Spine.down hn' hspine⟩
    rw [List.append_assoc]
    exact (h.visits ha hpa).snoc hn' hvisits

/-- Linking a new node to another grafts it. -/
theorem grafted_link (t : Tree α) {m : Node α} (hm : m.children = []) (hp : t.get? p = some n) :
    t.Grafted ((t.push m).link p t.size) p t.size := by
  have hlt : p < t.size := lt_size_iff.mpr ⟨n, hp⟩
  have hnode : ∀ i n, t.get? i = some n → ∃ n', ((t.push m).link p t.size).get? i = some n' ∧
      n'.children = if p = i then n.children ++ [t.size] else n.children := by
    intro i n hn
    have hi : i ≠ t.size := Nat.ne_of_lt (lt_size_iff.mpr ⟨n, hn⟩)
    refine ⟨_, by rw [get?_link, get?_push, if_neg hi, hn, Option.map_some], rfl⟩
  refine ⟨?_, fun n hn => ?_, fun i hi n hn => ?_⟩
  · refine ⟨_, by rw [get?_link, get?_push, if_pos rfl, Option.map_some], ?_⟩
    simp [hm, Nat.ne_of_lt hlt]
  · obtain ⟨n', hn', hc⟩ := hnode p n hn
    exact ⟨n', hn', by rw [hc, if_pos rfl]⟩
  · obtain ⟨n', hn', hc⟩ := hnode i n hn
    exact ⟨n', hn', by rw [hc, if_neg (fun e => hi e.symm)]⟩

end Tree

/-! ## Rows one by one -/

namespace Outline

/-- Nearer to the top less is remembered. -/
theorem Branch.above_mono (branch : Branch) {l level : Nat} (h : l ≤ level) : branch.above l <+: branch.above level := by
  unfold above
  exact (List.take_prefix_take_left h).filterMap id

/-- The walk of a tree under construction goes by the order of the rows, and what the branch remembers lies on the spine. -/
structure Ordered (s : State α) : Prop where
  visits : s.tree.Visits Node.children s.topLevel (List.range s.tree.size)
  spine : ∀ level, s.tree.Spine s.topLevel (s.branch.above level)

/-- At first there is nothing to visit. -/
theorem Ordered.nil : Ordered (⟨Tree.empty, [], []⟩ : State α) := by
  refine ⟨Visits.done, fun level => ?_⟩
  rw [Branch.above, List.take_nil]
  exact Spine.stop

/-- A new row comes last in the walk. -/
theorem Ordered.add [Quantity α] {s : State α} (h : Ordered s) (row : Row) : Ordered (s.add row) := by
  have hextend : ∀ {t' : Tree α} {siblings : List NodeId},
      t'.Spine siblings (s.branch.above row.indentLevel ++ [s.tree.size]) → ∀ level,
      t'.Spine siblings ((s.branch.extend row.indentLevel s.tree.size).above level) := by
    intro t' siblings hspine level
    rw [Branch.above_extend]
    split
    · exact hspine
    · rename_i hlevel
      exact hspine.shorten ((s.branch.above_mono (Nat.le_of_not_lt hlevel)).trans (List.prefix_append _ _))
  have hparent := s.branch.parent?_eq row.indentLevel
  unfold State.add
  cases hp : s.branch.parent? row.indentLevel with
  | none =>
    rw [hp, eq_comm, List.getLast?_eq_none_iff] at hparent
    rw [hparent, List.nil_append] at hextend
    have hnew : (s.tree.push row.toNode).get? s.tree.size = some { (row.toNode : Node α) with id := s.tree.size } := by
      rw [get?_push, if_pos rfl]
    refine ⟨?_, hextend (Spine.down hnew Spine.stop)⟩
    rw [size_push, List.range_succ]
    refine (h.visits.congr (fun i hi n hn => ⟨n, ?_, rfl⟩)).snoc hnew Visits.done
    rw [get?_push, if_neg (Nat.ne_of_lt (List.mem_range.mp hi)), hn]
  | some p =>
    rw [hp, eq_comm, List.getLast?_eq_some_iff] at hparent
    obtain ⟨chain, hchain⟩ := hparent
    rw [hchain, List.append_assoc] at hextend
    have hspine := hchain ▸ h.spine row.indentLevel
    obtain ⟨n, hn⟩ := h.visits.exists_node (hspine.subset h.visits (List.mem_append_right chain List.mem_cons_self))
    have hgraft := grafted_link (m := row.toNode) s.tree rfl hn
    obtain ⟨hvisits, hspine'⟩ := hgraft.extend hspine h.visits List.nodup_range
    refine ⟨?_, hextend hspine'⟩
    rw [size_link, size_push, List.range_succ]
    exact hvisits

/-- Whatever rows are added, the walk visits them in their order. -/
theorem ordered [Quantity α] (rows : List Row) : Ordered (rows.foldl State.add (⟨Tree.empty, [], []⟩ : State α)) := by
  induction rows using List.reverseRecOn with
  | nil => exact Ordered.nil
  | append_singleton rows row ih =>
    rw [List.foldl_append]
    exact ih.add row

/-! ## The closed tree -/

/-- The children of a row are the rows that have it as their parent. -/
theorem mem_childRows {rows : List Row} : i ∈ childRows rows p ↔ i < rows.length ∧ parentRow rows i = some p := by
  simp [childRows]

/-- The grouping node stands behind all rows. -/
theorem group?_eq {rows : List Row} (h : group? rows = some i) : i = rows.length := by
  unfold group? at h
  split at h
  · cases h
  · exact (Option.some.inj h).symm

namespace Closed

variable [Quantity α] {rows : List Row}

/-- A node stands for a row, or it groups the top-level rows. -/
theorem row_or_group (h : Closed rows t) (hn : t.get? i = some n) :
    (∃ row, rows[i]? = some row ∧ n = { (rowNode rows i row : Node α) with parent := (parentRow rows i).or (group? rows) }) ∨
      group? rows = some i ∧ n = groupNode rows := by
  rcases Nat.lt_or_ge i rows.length with hlt | hge
  · have hrow := h.node i rows[i] (List.getElem?_eq_getElem hlt)
    rw [hn, Option.some.injEq] at hrow
    exact Or.inl ⟨rows[i], List.getElem?_eq_getElem hlt, hrow⟩
  · have hsize := lt_size_iff.mpr ⟨n, hn⟩
    rw [h.size] at hsize
    cases hg : group? rows with
    | none =>
      rw [hg] at hsize
      exact absurd hsize (Nat.not_lt_of_ge hge)
    | some g =>
      rw [hg, Option.toList_some, List.length_singleton] at hsize
      have hig : i = g := (Nat.le_antisymm (Nat.le_of_lt_succ hsize) hge).trans (group?_eq hg).symm
      have hnode := h.group g hg
      rw [← hig, hn, Option.some.injEq] at hnode
      exact Or.inr ⟨congrArg some hig.symm, hnode⟩

/-- The walk of the closed tree goes by the order of the rows, after the node that groups them. -/
theorem visits (h : Closed rows t) :
    t.Visits Node.children t.root.toList ((group? rows).toList ++ List.range rows.length) := by
  have hgrown := grown (α := α) rows
  have hordered := (ordered (α := α) rows).visits
  rw [hgrown.size, hgrown.topLevel] at hordered
  have htop : t.Visits Node.children (topRows rows) (List.range rows.length) := by
    refine hordered.congr (fun i hi n hn => ?_)
    have hrow := List.getElem?_eq_getElem (List.mem_range.mp hi)
    refine ⟨_, h.node i _ hrow, ?_⟩
    rw [hgrown.node i _ hrow, Option.some.injEq] at hn
    rw [← hn]
  rw [h.root]
  cases hg : group? rows with
  | none =>
    have hle : (topRows rows).length ≤ 1 := by
      by_contra hmany
      rw [group?, if_neg hmany] at hg
      cases hg
    have hhead : (topRows rows).head?.toList = topRows rows := by
      cases hroots : topRows rows with
      | nil => rfl
      | cons first roots =>
        rw [hroots, List.length_cons] at hle
        rw [List.length_eq_zero_iff.mp (Nat.le_zero.mp (Nat.le_of_succ_le_succ hle))]
        rfl
    rw [Option.none_or, hhead]
    exact htop
  | some g => exact Visits.singleton_iff.mpr ⟨groupNode rows, _, h.group g hg, rfl, htop⟩

/-- The walk meets the grouping node, if there is one, and then the rows in their order. -/
theorem preOrder_eq (h : Closed rows t) : t.preOrder = (group? rows).toList ++ List.range rows.length := by
  refine h.visits.preOrder_eq ?_
  rw [h.size, List.length_append, List.length_range, Nat.add_comm]

/-- The tree of some rows is spanned by its walk. -/
theorem spanning (h : Closed rows t) : t.Spanning where
  ids i n hn := by
    rcases h.row_or_group hn with ⟨row, -, rfl⟩ | ⟨hg, rfl⟩
    · rfl
    · exact (group?_eq hg).symm
  traversal := h.preOrder_eq ▸ h.visits
  reached i hi := by
    obtain ⟨n, hn⟩ := lt_size_iff.mp hi
    rw [h.preOrder_eq]
    rcases h.row_or_group hn with ⟨row, hrow, -⟩ | ⟨hg, -⟩
    · exact List.mem_append_right _ (List.mem_range.mpr (List.getElem?_eq_some_iff.mp hrow).1)
    · exact List.mem_append_left _ (Option.mem_toList.mpr hg)
  once := by
    rw [h.preOrder_eq]
    cases hg : group? rows with
    | none => exact List.nodup_range
    | some g =>
      refine List.nodup_cons.mpr ⟨fun hmem => ?_, List.nodup_range⟩
      have hlt : g < rows.length := List.mem_range.mp hmem
      rw [group?_eq hg] at hlt
      exact absurd hlt (Nat.lt_irrefl _)

/-- Parents and children fit together in the tree of some rows. -/
theorem linked (h : Closed rows t) : t.Linked := by
  intro i n p hn
  constructor
  · intro hp
    rcases h.row_or_group hn with ⟨row, hrow, rfl⟩ | ⟨-, rfl⟩
    · have hi := (List.getElem?_eq_some_iff.mp hrow).1
      rcases Option.or_eq_some_iff.mp hp with hparent | ⟨hparent, hg⟩
      · have hlt := Nat.lt_trans (parentRow_lt hparent) hi
        exact ⟨_, h.node p _ (List.getElem?_eq_getElem hlt), mem_childRows.mpr ⟨hi, hparent⟩⟩
      · exact ⟨_, h.group p hg, mem_topRows.mpr ⟨hi, hparent⟩⟩
    · cases hp
  · rintro ⟨m, hm, hmem⟩
    have hlisted : i < rows.length ∧ (parentRow rows i).or (group? rows) = some p := by
      rcases h.row_or_group hm with ⟨row, -, rfl⟩ | ⟨hg, rfl⟩
      · obtain ⟨hi, hparent⟩ := mem_childRows.mp hmem
        exact ⟨hi, by rw [hparent, Option.some_or]⟩
      · obtain ⟨hi, hparent⟩ := mem_topRows.mp hmem
        exact ⟨hi, by rw [hparent, Option.none_or, hg]⟩
    rcases h.row_or_group hn with ⟨row, -, rfl⟩ | ⟨hg, -⟩
    · exact hlisted.2
    · exact absurd (group?_eq hg) (Nat.ne_of_lt hlisted.1)

end Closed

/-! ## Levels -/

/-- Setting a depth changes no other node. -/
theorem get?_assignDepth (t : Tree α) (id i : NodeId) : (assignDepth t id).get? i =
    if id = i then (t.get? i).map (fun n => { n with depth := structuralDepth t id }) else t.get? i :=
  get?_modify t id _ i

/-- Setting a depth changes no links. -/
theorem assignDepth_links (t : Tree α) (id : NodeId) : Agrees Node.links t (assignDepth t id) :=
  Agrees.modify t id _ (fun _ => rfl)

/-- Where a node belongs changes only with its parent. -/
theorem structuralDepth_assignDepth {id : NodeId} (h : t.parent? i ≠ some id) :
    structuralDepth (assignDepth t id) i = structuralDepth t i := by
  have hparent : (assignDepth t id).parent? i = t.parent? i :=
    parent?_congr ((assignDepth_links t id).view (fun l => l.2.1) (fun _ => rfl)) i
  unfold structuralDepth
  rw [hparent]
  cases hp : t.parent? i with
  | none => rfl
  | some p =>
    have hne : id ≠ p := by
      rintro rfl
      exact h hp
    simp only [get?_assignDepth, if_neg hne]

/-- Parents come first, so a node that was put on its level stays on the level it belongs on. -/
theorem settled (h : t.Spanning) (hl : t.Linked) {a b : List NodeId} (hab : t.preOrder = a ++ b) :
    ∀ i ∈ a, ((a.foldl assignDepth t).get? i).map Node.depth = some (structuralDepth (a.foldl assignDepth t) i) := by
  induction a using List.reverseRecOn generalizing b with
  | nil => exact fun i hi => absurd hi List.not_mem_nil
  | append_singleton a id ih =>
    have hlinks : Agrees Node.links t (a.foldl assignDepth t) := Agrees.foldl _ assignDepth_links a t
    rw [List.append_assoc, List.singleton_append] at hab
    have hsettled := ih hab
    have honce := h.once
    rw [hab] at honce
    have hid : id ∉ a := fun hmem => (List.nodup_append.mp honce).2.2 id hmem id List.mem_cons_self rfl
    have hparent : ∀ i a' b', t.preOrder = a' ++ i :: b' → a' <+: a → (a.foldl assignDepth t).parent? i ≠ some id := by
      intro i a' b' hsplit hfirst hp
      rw [parent?_congr (hlinks.view (fun l => l.2.1) (fun _ => rfl))] at hp
      exact hid (hfirst.subset (h.parent_before hl hsplit hp))
    rw [List.foldl_append, List.foldl_cons, List.foldl_nil]
    intro i hi
    rw [get?_assignDepth]
    rcases List.mem_append.mp hi with hi | hi
    · obtain ⟨a₁, a₂, rfl⟩ := List.append_of_mem hi
      have hkeep := hparent i a₁ (a₂ ++ id :: b) (by rw [hab, List.append_assoc, List.cons_append]) (List.prefix_append _ _)
      rw [if_neg (fun e : id = i => hid (e ▸ hi)), structuralDepth_assignDepth hkeep]
      exact hsettled i hi
    · obtain rfl := List.mem_singleton.mp hi
      obtain ⟨n, hn⟩ := h.traversal.exists_node (hab ▸ List.mem_append_right a List.mem_cons_self)
      obtain ⟨n', hn', -⟩ := hlinks.get? hn
      rw [if_pos rfl, hn', structuralDepth_assignDepth (hparent i a b hab (List.prefix_refl a))]
      rfl

/-- With levels, a tree whose links match is well-formed. -/
theorem assignDepths_wellFormed (h : t.Spanning) (hl : t.Linked) : (assignDepths t).WellFormed := by
  have hlinks : Agrees Node.links t (assignDepths t) := Agrees.foldl _ assignDepth_links _ t
  have hspanning := h.of_agrees hlinks
  have hlinked := hl.of_agrees hlinks
  have hdepth : ∀ i n, (assignDepths t).get? i = some n → n.depth = structuralDepth (assignDepths t) i := by
    intro i n hn
    have hi : i < t.size := hlinks.size_eq ▸ lt_size_iff.mpr ⟨n, hn⟩
    have hsettled := settled h hl (List.append_nil _).symm i (h.reached i hi)
    rw [← assignDepths, hn, Option.map_some, Option.some.injEq] at hsettled
    exact hsettled
  refine ⟨hspanning, hlinked, fun i n c m hn hc hm => ?_, fun r n hr hn => ?_⟩
  · rw [hdepth c m hm, structuralDepth, parent?_eq hm, hlinked.child_parent hn hc hm]
    simp only [hn, Option.map_some, Option.getD_some]
  · rw [hdepth r n hn, structuralDepth, parent?_eq hn, hspanning.root_parent hlinked hr hn]

/-! ## The tree of a text -/

/-- Rows make a well-formed tree. -/
theorem ofRows_wellFormed [Quantity α] (rows : List Row) : (Tree.ofRows rows : Tree α).WellFormed := by
  have hclosed : Closed rows _ := (grown (α := α) rows).close
  exact assignDepths_wellFormed hclosed.spanning hclosed.linked

/-- The walk of the tree of rows goes by the order of the rows. -/
theorem ofRows_preOrder [Quantity α] (rows : List Row) :
    (Tree.ofRows rows : Tree α).preOrder = (group? rows).toList ++ List.range rows.length := by
  obtain ⟨t, hclosed, hagrees⟩ := ofRows_agrees (α := α) rows
  rw [preOrder_congr (hagrees.view Node.children (fun _ => rfl)), hclosed.preOrder_eq]

/-- A node of the tree of rows bears the number of its row, or it groups the top-level rows. -/
theorem ofRows_row_or_group [Quantity α] {rows : List Row} (hn : (Tree.ofRows rows).get? i = some n) :
    (∃ row, rows[i]? = some row ∧ n.rowNumber = row.number ∧ n.isSynthetic = false) ∨
      group? rows = some i ∧ n.isSynthetic = true := by
  obtain ⟨t, hclosed, hagrees⟩ := ofRows_agrees (α := α) rows
  have hview : Agrees (fun n => (n.rowNumber, n.isSynthetic)) t (Tree.ofRows rows) :=
    hagrees.view (fun n => (n.rowNumber, n.isSynthetic)) (fun _ => rfl)
  obtain ⟨m, hm, hmn⟩ := hview.symm.get? hn
  obtain ⟨hnumber, hsynthetic⟩ := Prod.mk.inj hmn
  rw [← hnumber, ← hsynthetic]
  rcases hclosed.row_or_group hm with ⟨row, hrow, rfl⟩ | ⟨hg, rfl⟩
  · exact Or.inl ⟨row, hrow, rfl, rfl⟩
  · exact Or.inr ⟨hg, rfl⟩

/-- The rows of a text are its plan lines, numbered from one. -/
theorem length_ofText (config : ParserConfig) (text : String) :
    (Row.ofText config text).length = (Row.planLines text.toList).length := by
  rw [Row.ofText, List.length_map, List.length_zipIdx]

/-- Rows are numbered from one on. -/
theorem number_ofText {config : ParserConfig} {text : String} {row : Row} (h : (Row.ofText config text)[i]? = some row) :
    row.number = i + 1 := by
  rw [Row.ofText, List.getElem?_map] at h
  obtain ⟨line, hline, rfl⟩ := Option.map_eq_some_iff.mp h
  rw [List.getElem?_zipIdx] at hline
  obtain ⟨content, -, rfl⟩ := Option.map_eq_some_iff.mp hline
  simp [Row.ofLine]

/-- The tree of a text has a node for each line that is a row, and one that groups the top-level rows if there are several. The
rows are numbered in order, and the walk from the root passes over every node once, in the order of the lines. Every node but the
root is listed once, by its parent alone, and lies a level below it; the way to a node has an element for each level. -/
theorem ofText_textual_order [Quantity α] (config : ParserConfig) (text : String) :
    let t : Tree α := Tree.ofText config text
    let count := ((Text.lines text.toList).filter (fun line => !Text.isBlankText line && !Row.isGridHeader line)).length
    let group := if (topRows (Row.ofText config text)).length ≤ 1 then [] else [count]
    t.size = count + group.length ∧
    (∀ i n, t.get? i = some n → n.id = i ∧ (i < count → n.rowNumber = i + 1) ∧ (n.isSynthetic = true ↔ i ∈ group)) ∧
    t.preOrder = group ++ List.range count ∧
    t.Visits Node.children t.root.toList t.preOrder ∧
    (∀ i n, t.get? i = some n → t.root ≠ some i → ∃ p m, n.parent = some p ∧ t.get? p = some m ∧ n.depth = m.depth + 1 ∧
      m.children.count i = 1 ∧ ∀ q k, t.get? q = some k → i ∈ k.children → q = p) ∧
    (∀ r n, t.root = some r → t.get? r = some n → n.parent = none ∧ n.depth = 0 ∧ ∀ q k, t.get? q = some k → r ∉ k.children) ∧
    (t.isEmpty = false → t.root.isSome = true ∧ t.edgeCount = t.size - 1) ∧
    (∀ i n, t.get? i = some n →
      (t.path i).head? = t.root ∧ (t.path i).getLast? = some i ∧ (t.path i).length = n.depth + 1) := by
  intro t count group
  have hcount : (Row.ofText config text).length = count := length_ofText config text
  have hgroup : (group? (Row.ofText config text)).toList = group := by
    unfold group?
    rw [hcount]
    split
    · rename_i hone
      exact (if_pos hone).symm
    · rename_i hmany
      exact (if_neg hmany).symm
  have h : t.WellFormed := ofRows_wellFormed _
  obtain ⟨u, hclosed, hagrees⟩ : ∃ u : Tree α, Closed (Row.ofText config text) u ∧ Agrees Node.unleveled u t := ofRows_agrees _
  have hmem : ∀ i, i ∈ group ↔ group? (Row.ofText config text) = some i := fun i => hgroup ▸ Option.mem_toList
  refine ⟨?_, fun i n hn => ⟨h.ids i n hn, fun hi => ?_, ?_⟩, ?_, h.traversal, fun i n hn hi => ?_, fun r n hr hn => ?_,
    fun hne => ?_, fun i n hn => h.path_spec hn⟩
  · rw [hagrees.size_eq, hclosed.size, hcount, hgroup]
  · rcases ofRows_row_or_group hn with ⟨row, hrow, hnumber, -⟩ | ⟨hg, -⟩
    · rw [hnumber, number_ofText hrow]
    · rw [group?_eq hg, hcount] at hi
      exact absurd hi (Nat.lt_irrefl _)
  · rw [hmem]
    rcases ofRows_row_or_group hn with ⟨row, hrow, -, hsynthetic⟩ | ⟨hg, hsynthetic⟩
    · refine ⟨fun h => absurd h (by simp [hsynthetic]), fun hg => ?_⟩
      have hlt := (List.getElem?_eq_some_iff.mp hrow).1
      rw [group?_eq hg] at hlt
      exact absurd hlt (Nat.lt_irrefl _)
    · exact ⟨fun _ => hg, fun _ => hsynthetic⟩
  · rw [← hgroup, ← hcount]
    exact ofRows_preOrder _
  · obtain ⟨p, m, hparent, hm, hone, hall⟩ := h.listed_once h.linked hn hi
    have hmem : i ∈ m.children := List.count_pos_iff.mp (by omega)
    exact ⟨p, m, hparent, hm, h.leveled p m i n hm hmem hn, hone, hall⟩
  · exact ⟨h.root_parent h.linked hr hn, h.root_depth r n hr hn, fun q k hk => h.root_not_listed hr hk⟩
  · have hpos : 0 < t.size := by
      rw [Nat.pos_iff_ne_zero]
      intro hzero
      rw [isEmpty, Array.isEmpty_iff_size_eq_zero.mpr hzero] at hne
      cases hne
    obtain ⟨r, hr⟩ := h.exists_root hpos
    have hedges := h.edgeCount_eq
    rw [hr, Option.toList_some, List.length_singleton] at hedges
    exact ⟨by rw [hr, Option.isSome_some], by omega⟩

end Outline

end DaxPlan
