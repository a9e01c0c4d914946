import DaxPlan.Proofs.Layout.Lockstep
import DaxPlan.Proofs.Tree.Visible

/-!
# Tables noted from the leaves up

Footprints and widths of subtrees are noted in a table by id, from the end of the walk to its beginning, and the entry of a node
is computed from those of the children it shows. These come after it in the walk and are noted once, so what was read when the
entry was computed is what stands in the table in the end (`noted`). The table of the footprints therefore holds the footprints
(`visibleFootprints_eq`), and that of the widths obeys the rule for the width of a subtree (`subtreeWidths_eq`).
-/

namespace DaxPlan.Layout

open DaxPlan.Tree

variable {α β : Type} {t : Tree α} {order later : List NodeId} {i c : NodeId} {n : Node α} {f : NodeId → Array β → β}
  {table : Array β}

/-- Notes an entry for each of some nodes, the last one first. -/
def noteAll (f : NodeId → Array β → β) (order : List NodeId) (table : Array β) : Array β :=
  order.foldr (fun id table => table.setIfInBounds id (f id table)) table

/-- The first node is noted last. -/
@[simp] theorem noteAll_cons (f : NodeId → Array β → β) (i : NodeId) (order : List NodeId) (table : Array β) :
    noteAll f (i :: order) table = (noteAll f order table).setIfInBounds i (f i (noteAll f order table)) := rfl

/-- Noting keeps the size of a table. -/
@[simp] theorem size_noteAll (f : NodeId → Array β → β) (order : List NodeId) (table : Array β) :
    (noteAll f order table).size = table.size := by
  induction order with
  | nil => rfl
  | cons i order ih => rw [noteAll_cons, Array.size_setIfInBounds, ih]

/-- Nodes further to the front leave an entry alone. -/
theorem noteAll_append (hi : i ∉ order) : (noteAll f (order ++ later) table)[i]? = (noteAll f later table)[i]? := by
  induction order with
  | nil => rfl
  | cons j order ih =>
    rw [List.mem_cons, not_or] at hi
    rw [List.cons_append, noteAll_cons, Array.getElem?_setIfInBounds_ne (Ne.symm hi.1), ih hi.2]

/-- An entry is what is computed from the whole table, if it is computed from the entries of the children shown. -/
theorem noted (hfollow : ChildrenFollow t order) (hnodup : order.Nodup) (hsize : ∀ i ∈ order, i < table.size)
    (hf : ∀ i u v, (∀ c ∈ visibleChildren t i, u[c]? = v[c]?) → f i u = f i v) (hi : i ∈ order) :
    (noteAll f order table)[i]? = some (f i (noteAll f order table)) := by
  obtain ⟨a, b, rfl⟩ := List.append_of_mem hi
  obtain ⟨-, hib, hab⟩ := List.nodup_append.mp hnodup
  have hia : i ∉ a := fun hm => hab i hm i List.mem_cons_self rfl
  have hlt : i < (noteAll f b table).size := by
    rw [size_noteAll]
    exact hsize i hi
  rw [noteAll_append hia, noteAll_cons, Array.getElem?_setIfInBounds_self_of_lt hlt]
  refine congrArg some (hf i _ _ (fun c hc => ?_))
  have hcb : c ∈ b := hfollow a i b rfl c hc
  have hca : c ∉ a ++ [i] := by
    rw [List.mem_append, List.mem_singleton]
    rintro (hm | rfl)
    · exact hab c hm c (List.mem_cons_of_mem i hcb) rfl
    · exact (List.nodup_cons.mp hib).1 hcb
  rw [List.append_cons, noteAll_append hca]

/-! ## Footprints -/

/-- The footprint of a node, computed from those noted for the children it shows. -/
def footprintFrom (t : Tree α) (id : NodeId) (table : Array Nat) : Nat :=
  if (visibleChildren t id).isEmpty then 1 else Number.total ((visibleChildren t id).map (fun c => table[c]?.getD 0))

/-- A footprint hangs on the entries of the children that are shown. -/
theorem footprintFrom_congr {u v : Array Nat} (h : ∀ c ∈ visibleChildren t i, u[c]? = v[c]?) :
    footprintFrom t i u = footprintFrom t i v := by
  have hmap : (visibleChildren t i).map (fun c => u[c]?.getD 0) = (visibleChildren t i).map (fun c => v[c]?.getD 0) :=
    List.map_congr_left (fun c hc => by rw [h c hc])
  rw [footprintFrom, hmap, footprintFrom]

/-- The table of the visible footprints holds the footprints of the visible nodes. -/
theorem visibleFootprints_eq (h : t.Spanning) (hi : i ∈ t.visiblePreOrder) :
    t.visibleFootprints[i]?.getD 0 = t.footprint i := by
  have hsize : ∀ i ∈ t.visiblePreOrder, i < (Array.replicate t.size 0).size := by
    intro i hi
    rw [Array.size_replicate]
    exact h.lt_size_of_visible hi
  have hentry : ∀ i ∈ t.visiblePreOrder, t.visibleFootprints[i]? = some (footprintFrom t i t.visibleFootprints) :=
    fun i hi => noted (childrenFollow_visiblePreOrder h) h.nodup_visiblePreOrder hsize (fun _ _ _ => footprintFrom_congr) hi
  refine h.upward (P := fun i => i ∈ t.visiblePreOrder → t.visibleFootprints[i]?.getD 0 = t.footprint i)
    (fun i n hn hchildren hi => ?_) (h.lt_size_of_visible hi) hi
  have hmap : n.visibleChildren.map (fun c => t.visibleFootprints[c]?.getD 0) = n.visibleChildren.map t.footprint :=
    List.map_congr_left (fun c hc => hchildren c hc (h.visible_child hi hn hc))
  rw [hentry i hi, Option.getD_some, h.footprint_eq hn, footprintFrom, visibleChildren_eq hn, hmap]

/-! ## Widths -/

section Widths

variable [Quantity α] {spacing : α}

/-- The width of a node that is there. -/
theorem widthOf_eq (hn : t.get? i = some n) : widthOf t i = n.width := by
  rw [widthOf, hn]
  rfl

/-- The width of children side by side hangs on their entries. -/
theorem childrenSpan_congr {children : List NodeId} {u v : Table α} (h : ∀ c ∈ children, u[c]? = v[c]?) :
    childrenSpan children u spacing = childrenSpan children v spacing := by
  have hmap : children.map u.get = children.map v.get := by
    refine List.map_congr_left (fun c hc => ?_)
    rw [Table.get, h c hc, Table.get]
  rw [childrenSpan, hmap, childrenSpan]

/-- The width of a visible subtree, computed from those noted for the children that its node shows. -/
def subtreeWidthFrom (t : Tree α) (spacing : α) (id : NodeId) (widths : Table α) : α :=
  if (visibleChildren t id).isEmpty then widthOf t id
  else Quantity.max (widthOf t id) (childrenSpan (visibleChildren t id) widths spacing)

/-- The width that is noted for a subtree. -/
theorem noteWidth_eq (hn : t.get? i = some n) (widths : Table α) :
    noteWidth t spacing i widths = widths.setIfInBounds i (subtreeWidthFrom t spacing i widths) := by
  rw [noteWidth, subtreeWidthFrom, visibleChildren_eq hn, widthOf_eq hn, hn]

/-- The width of a visible subtree is that of its node, or of the children it shows side by side if that is larger. -/
theorem subtreeWidths_eq (h : t.Spanning) (spacing : α) (hi : i ∈ t.visiblePreOrder) (hn : t.get? i = some n) :
    (subtreeWidths t t.visiblePreOrder spacing).get i = if n.visibleChildren.isEmpty then n.width
      else Quantity.max n.width (childrenSpan n.visibleChildren (subtreeWidths t t.visiblePreOrder spacing) spacing) := by
  have hsize : ∀ i ∈ t.visiblePreOrder, i < (Array.replicate t.size (Quantity.zero : α)).size := by
    intro i hi
    rw [Array.size_replicate]
    exact h.lt_size_of_visible hi
  have htable : subtreeWidths t t.visiblePreOrder spacing =
      noteAll (subtreeWidthFrom t spacing) t.visiblePreOrder (Array.replicate t.size Quantity.zero) := by
    refine List.foldr_ext _ _ _ (fun j hj widths => ?_)
    obtain ⟨m, hm, -⟩ := h.visible_node hj
    exact noteWidth_eq hm widths
  have hentry := noted (f := subtreeWidthFrom t spacing) (childrenFollow_visiblePreOrder h) h.nodup_visiblePreOrder hsize
    (fun i u v huv => by rw [subtreeWidthFrom, childrenSpan_congr huv, subtreeWidthFrom]) hi
  rw [← htable] at hentry
  rw [Table.get, hentry, Option.getD_some, subtreeWidthFrom, visibleChildren_eq hn, widthOf_eq hn]

end Widths

end DaxPlan.Layout
