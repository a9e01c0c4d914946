import DaxPlan.Proofs.Tree.Spanning

/-!
# Strict accesses

The library looks nodes and table entries up, and goes on with a default where there is nothing to be found. A strict function
makes the same steps in the same order, but names the place of every access that it makes without asking first, and an access
out of range is its end: it gives `none`. A strict function that gives `some` of what its counterpart gives has made no such
access, and the default of the counterpart was never needed.

A walk with a stack of pending nodes reads a node for every step (`walk`). In a spanning tree it reads nodes that are there and
comes to an end within as many steps as there are nodes.
-/

namespace DaxPlan.Strict

open DaxPlan.Tree

variable {α β σ ι : Type}

/-! ## Single accesses -/

/-- Changes the node at a place. -/
def update (t : Tree α) (id : NodeId) (f : Node α → Node α) : Option (Tree α) :=
  if t.contains id then some (t.modify id f) else none

/-- Writes the entry of a table at a place. -/
def write (table : Array β) (place : Nat) (x : β) : Option (Array β) :=
  if h : place < table.size then some (table.set place x) else none

/-- The part of a list before a place. -/
def sliceTo (xs : List β) (stop : Nat) : Option (List β) := if stop ≤ xs.length then some (xs.take stop) else none

/-- The part of a list from a place on. -/
def sliceFrom (xs : List β) (start : Nat) : Option (List β) := if start ≤ xs.length then some (xs.drop start) else none

/-- After an access in range the program goes on. -/
theorem then_eq {γ : Type} {x : Option β} {a : β} (h : x = some a) (rest : β → Option γ) : (x >>= rest) = rest a := by
  rw [h]
  rfl

theorem update_eq {t : Tree α} {id : NodeId} (h : id < t.size) (f : Node α → Node α) :
    update t id f = some (t.modify id f) :=
  if_pos (decide_eq_true h)

theorem write_eq {table : Array β} {place : Nat} (h : place < table.size) (x : β) :
    write table place x = some (table.setIfInBounds place x) := by
  rw [write, dif_pos h, Array.setIfInBounds, dif_pos h]

theorem read_eq {table : Array β} {place : Nat} (h : place < table.size) (default : β) :
    table[place]? = some (table[place]?.getD default) := by
  rw [Array.getElem?_eq_getElem h, Option.getD_some]

theorem sliceTo_eq {xs : List β} {stop : Nat} (h : stop ≤ xs.length) : sliceTo xs stop = some (xs.take stop) :=
  if_pos h

theorem sliceFrom_eq {xs : List β} {start : Nat} (h : start ≤ xs.length) : sliceFrom xs start = some (xs.drop start) :=
  if_pos h

/-! ## Loops -/

/-- A loop comes to its end if every step does, as long as an invariant holds that the steps keep. -/
theorem foldlM_eq {step : σ → ι → Option σ} {f : σ → ι → σ} (P : σ → Prop) {xs : List ι}
    (h : ∀ s, P s → ∀ x ∈ xs, step s x = some (f s x) ∧ P (f s x)) {s : σ} (hs : P s) :
    xs.foldlM step s = some (xs.foldl f s) ∧ P (xs.foldl f s) := by
  induction xs generalizing s with
  | nil => exact ⟨rfl, hs⟩
  | cons x xs ih =>
    obtain ⟨hstep, hnext⟩ := h s hs x List.mem_cons_self
    rw [List.foldlM_cons, then_eq hstep]
    exact ih (fun s hs y hy => h s hs y (List.mem_cons_of_mem x hy)) hnext

/-- The same for a loop over a list from its end. -/
theorem foldrM_eq {step : ι → σ → Option σ} {f : ι → σ → σ} (P : σ → Prop) {xs : List ι}
    (h : ∀ s, P s → ∀ x ∈ xs, step x s = some (f x s) ∧ P (f x s)) {s : σ} (hs : P s) :
    xs.foldrM step s = some (xs.foldr f s) ∧ P (xs.foldr f s) := by
  rw [← List.foldlM_reverse, ← List.foldl_reverse]
  exact foldlM_eq P (fun s hs x hx => h s hs x (List.mem_reverse.mp hx)) hs

/-- A list is read if each of its members is. -/
theorem mapM_eq_of_map {read : ι → Option β} {xs : List ι} {ys : List β} (h : xs.map read = ys.map some) :
    xs.mapM read = some ys := by
  induction xs generalizing ys with
  | nil =>
    rw [List.map_nil, eq_comm, List.map_eq_nil_iff] at h
    rw [h]
    rfl
  | cons x xs ih =>
    obtain ⟨y, ys, rfl, hy, hys⟩ := List.map_eq_cons_iff.mp h.symm
    rw [List.mapM_cons, ← hy, ih hys.symm]
    rfl

theorem mapM_eq {read : ι → Option β} {f : ι → β} {xs : List ι} (h : ∀ x ∈ xs, read x = some (f x)) :
    xs.mapM read = some (xs.map f) :=
  mapM_eq_of_map ((List.map_congr_left h).trans List.map_map.symm)

theorem nodesAt_cons {t : Tree α} {i : NodeId} {n : Node α} (hn : t.get? i = some n) (ids : List NodeId) :
    t.nodesAt (i :: ids) = n :: t.nodesAt ids :=
  List.filterMap_cons_some hn

/-- Reading something off the nodes with some ids. -/
theorem mapM_node_eq (t : Tree α) (ids : List NodeId) (read : NodeId → Node α → β) (f : Node α → β)
    (h : ∀ i ∈ ids, ∃ n, t.get? i = some n ∧ read i n = f n) :
    ids.mapM (fun i => (t.get? i).map (read i)) = some ((t.nodesAt ids).map f) := by
  induction ids with
  | nil => rfl
  | cons i ids ih =>
    obtain ⟨n, hn, hread⟩ := h i List.mem_cons_self
    have hrest := ih (fun j hj => h j (List.mem_cons_of_mem i hj))
    rw [List.mapM_cons, hrest, hn, nodesAt_cons hn, List.map_cons, Option.map_some, hread]
    rfl

/-- Reading the nodes with some ids. -/
theorem mapM_get?_eq {t : Tree α} {ids : List NodeId} (h : ∀ i ∈ ids, i < t.size) :
    ids.mapM t.get? = some (t.nodesAt ids) := by
  have hread := mapM_node_eq t ids (fun _ n => n) id (fun i hi => by
    obtain ⟨n, hn⟩ := lt_size_iff.mp (h i hi)
    exact ⟨n, hn, rfl⟩)
  simpa using hread

/-! ## Walks -/

/-- Reads the nodes that a stack of pending nodes leads to, in so many steps at most: the node on top is read and gives way to
the nodes that `next` tells, the first of them on top. -/
def walk (t : Tree α) (next : Node α → List NodeId) : Nat → List NodeId → Option (List (Node α))
  | _, [] => some []
  | 0, _ :: _ => none
  | steps + 1, id :: pending => do
    let n ← t.get? id
    let nodes ← walk t next steps (next n ++ pending)
    return n :: nodes

/-- The ids of all nodes reached from the root. -/
def preOrder (t : Tree α) : Option (List NodeId) := (walk t Node.children t.size t.root.toList).map (·.map Node.id)

/-- The nodes reached from the root and not hidden below a collapsed one. -/
def visibleNodes (t : Tree α) : Option (List (Node α)) := walk t Node.visibleChildren t.size t.root.toList

/-- Their ids. -/
def visiblePreOrder (t : Tree α) : Option (List NodeId) := (visibleNodes t).map (·.map Node.id)

variable {t : Tree α} {next : Node α → List NodeId} {s v : List NodeId} {i : NodeId}

/-- A traversal that comes to an end reads the nodes that it visits. -/
theorem walk_eq (h : t.Visits next s v) {steps : Nat} (hsteps : v.length ≤ steps) :
    walk t next steps s = some (t.nodesAt v) := by
  induction h generalizing steps with
  | done => cases steps <;> rfl
  | @visit id n pending visited hn _ ih =>
    cases steps with
    | zero => cases hsteps
    | succ steps =>
      rw [walk, then_eq hn, then_eq (ih (Nat.le_of_succ_le_succ hsteps)), nodesAt_cons hn]
      rfl

theorem length_visiblePreOrder_le (h : t.Spanning) : t.visiblePreOrder.length ≤ t.size :=
  h.length_preOrder ▸ h.visiblePreOrder_spec.2.length_le

theorem preOrder_eq (h : t.Spanning) : preOrder t = some t.preOrder := by
  rw [preOrder, walk_eq h.traversal (Nat.le_of_eq h.length_preOrder), Option.map_some,
    h.map_id_nodesAt (fun _ hi => h.lt_size_of_mem hi)]

theorem visibleNodes_eq (h : t.Spanning) : visibleNodes t = some (t.nodesAt t.visiblePreOrder) :=
  walk_eq h.visiblePreOrder_spec.1 (length_visiblePreOrder_le h)

theorem visiblePreOrder_eq (h : t.Spanning) : visiblePreOrder t = some t.visiblePreOrder := by
  rw [visiblePreOrder, visibleNodes_eq h, Option.map_some, h.map_id_nodesAt (fun _ hi => h.lt_size_of_visible hi)]

/-! ## Ids in range -/

/-- Some ids are places of a spanning tree. -/
structure Fits (ids : List NodeId) (t : Tree α) : Prop where
  spanning : t.Spanning
  inRange : ∀ i ∈ ids, i < t.size

theorem Fits.of_agrees {ids : List NodeId} {t t' : Tree α} (h : Fits ids t) (ha : Agrees Node.links t t') : Fits ids t' where
  spanning := h.spanning.of_agrees ha
  inRange i hi := ha.size_eq ▸ h.inRange i hi

theorem fits_visiblePreOrder (h : t.Spanning) : Fits t.visiblePreOrder t :=
  ⟨h, fun _ hi => h.lt_size_of_visible hi⟩

/-- A change that lets a node keep its id lets every node have its place for its id. -/
theorem ids_modify (ht : ∀ i n, t.get? i = some n → n.id = i) (id : NodeId) (f : Node α → Node α)
    (hf : ∀ n, (f n).id = n.id) :
    ∀ i n, (t.modify id f).get? i = some n → n.id = i := by
  intro i n hn
  obtain ⟨m, hm, hid⟩ := (Agrees.modify (f := Node.id) t id f hf).symm.get? hn
  rw [← hid]
  exact ht i m hm

end DaxPlan.Strict
