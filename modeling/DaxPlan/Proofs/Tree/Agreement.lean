import DaxPlan.Tree

/-!
# Trees that agree in what their nodes tell

A change of nodes leaves alone whatever it does not write. `Tree.Agrees f` says so for a view `f` of a node: the root and the
places are the same, and so is `f` at every place. What is said of a tree through `f` alone is then said of both trees, and each
change of nodes needs one fact only: which views it leaves alone.
-/

namespace DaxPlan.Tree

variable {α β γ : Type} {t t' t'' : Tree α} {f : Node α → β}

/-! ## Places after a change -/

/-- The ids of a tree are those that a node is found by. -/
theorem lt_size_iff {i : NodeId} : i < t.size ↔ ∃ n, t.get? i = some n := by
  simp only [size, get?]
  constructor
  · intro h
    exact ⟨t.nodes[i], Array.getElem?_eq_getElem h⟩
  · rintro ⟨n, hn⟩
    exact (Array.getElem?_eq_some_iff.mp hn).1

/-- A tree is told by its root and the nodes at its places. -/
theorem ext_get? (hroot : t'.root = t.root) (h : ∀ i, t'.get? i = t.get? i) : t' = t := by
  obtain ⟨nodes, root⟩ := t
  obtain ⟨nodes', root'⟩ := t'
  rw [Tree.mk.injEq]
  exact ⟨Array.ext_getElem? h, hroot⟩

/-- A node is found as it was, unless it is the one that is changed. -/
theorem get?_modify (t : Tree α) (id : NodeId) (g : Node α → Node α) (i : NodeId) :
    (t.modify id g).get? i = if id = i then (t.get? i).map g else t.get? i := by
  simp only [get?, modify, Array.getElem?_modify]

/-- A node is found changed. -/
theorem get?_map (t : Tree α) (g : Node α → Node α) (i : NodeId) : (t.map g).get? i = (t.get? i).map g := by
  simp only [get?, map, Array.getElem?_map]

/-- A node that is added is found by the id behind all others. -/
theorem get?_push (t : Tree α) (n : Node α) (i : NodeId) :
    (t.push n).get? i = if i = t.size then some { n with id := t.size } else t.get? i := by
  unfold get? push
  exact Array.getElem?_push

/-- Linking two nodes sets the parent of one and adds to the children of the other. -/
theorem get?_link (t : Tree α) (parent child i : NodeId) :
    (t.link parent child).get? i = (t.get? i).map (fun n =>
      { n with
        parent := if child = i then some parent else n.parent
        children := if parent = i then n.children ++ [child] else n.children }) := by
  simp only [link, get?_modify]
  by_cases hp : parent = i <;> by_cases hc : child = i <;> cases t.get? i <;> simp [hp, hc]

@[simp] theorem size_modify (t : Tree α) (id : NodeId) (g : Node α → Node α) : (t.modify id g).size = t.size := by
  simp [size, modify]

@[simp] theorem root_modify (t : Tree α) (id : NodeId) (g : Node α → Node α) : (t.modify id g).root = t.root := rfl

@[simp] theorem size_push (t : Tree α) (n : Node α) : (t.push n).size = t.size + 1 := by
  simp [size, push]

@[simp] theorem root_push (t : Tree α) (n : Node α) : (t.push n).root = t.root := rfl

@[simp] theorem size_link (t : Tree α) (parent child : NodeId) : (t.link parent child).size = t.size := by
  simp [link]

@[simp] theorem root_link (t : Tree α) (parent child : NodeId) : (t.link parent child).root = t.root := rfl

@[simp] theorem get?_setRoot (t : Tree α) (root i : NodeId) : (t.setRoot root).get? i = t.get? i := rfl

@[simp] theorem size_setRoot (t : Tree α) (root : NodeId) : (t.setRoot root).size = t.size := rfl

@[simp] theorem root_setRoot (t : Tree α) (root : NodeId) : (t.setRoot root).root = some root := rfl

/-- Nodes are changed one after the other: each that is named is changed once, if none is named twice. -/
theorem get?_foldl_modify (g : NodeId → Node α → Node α) (ids : List NodeId) (h : ids.Nodup) (t : Tree α) (i : NodeId) :
    (ids.foldl (fun t id => t.modify id (g id)) t).get? i = if i ∈ ids then (t.get? i).map (g i) else t.get? i := by
  induction ids generalizing t with
  | nil => simp
  | cons id ids ih =>
    obtain ⟨hid, hids⟩ := List.nodup_cons.mp h
    rw [List.foldl_cons, ih hids, get?_modify]
    by_cases hi : id = i
    · subst hi
      simp [hid]
    · have hi' : ¬i = id := fun e => hi e.symm
      simp [hi, hi']

/-- What is listed beside an id is what is looked up for it, if no id is listed twice. -/
theorem lookup_of_mem {pairs : List (NodeId × γ)} {id : NodeId} {x : γ} (h : (pairs.map Prod.fst).Nodup)
    (hx : (id, x) ∈ pairs) : pairs.lookup id = some x := by
  obtain ⟨above, below, rfl⟩ := List.append_of_mem hx
  rw [List.map_append, List.map_cons] at h
  refine List.lookup_eq_some_iff.mpr ⟨above, below, rfl, fun pair hpair => bne_iff_ne.mpr (fun he => ?_)⟩
  exact (List.nodup_append.mp h).2.2 pair.1 (List.mem_map_of_mem hpair) id List.mem_cons_self he.symm

/-- Nodes are changed one after the other, each by what stands beside its id. -/
theorem get?_foldl_modify_pairs (g : γ → Node α → Node α) (pairs : List (NodeId × γ)) (h : (pairs.map Prod.fst).Nodup)
    (t : Tree α) (i : NodeId) :
    (pairs.foldl (fun t pair => t.modify pair.1 (g pair.2)) t).get? i =
      (t.get? i).map (fun n => (pairs.lookup i).elim n (fun x => g x n)) := by
  induction pairs generalizing t with
  | nil => exact Option.map_id'.symm
  | cons pair pairs ih =>
    obtain ⟨id, x⟩ := pair
    obtain ⟨hid, hpairs⟩ := List.nodup_cons.mp h
    rw [List.foldl_cons, ih hpairs, get?_modify, List.lookup_cons]
    by_cases hi : id = i
    · subst hi
      have hnone : pairs.lookup id = none := by
        rw [List.lookup_eq_none_iff]
        intro pair hpair
        exact bne_iff_ne.mpr (fun e => hid (List.mem_map.mpr ⟨pair, hpair, e.symm⟩))
      rw [hnone, if_pos rfl, Option.map_map, beq_self_eq_true]
      rfl
    · rw [if_neg hi, beq_eq_false_iff_ne.mpr (fun e => hi e.symm)]

/-! ## Agreement -/

/-- Two trees have the same root and the same places, and `f` tells the same of the nodes at each place. -/
def Agrees (f : Node α → β) (t t' : Tree α) : Prop :=
  t'.root = t.root ∧ ∀ i, (t'.get? i).map f = (t.get? i).map f

namespace Agrees

/-- A tree agrees with itself. -/
theorem refl (f : Node α → β) (t : Tree α) : Agrees f t t := ⟨rfl, fun _ => rfl⟩

/-- Agreeing is mutual. -/
theorem symm (h : Agrees f t t') : Agrees f t' t := ⟨h.1.symm, fun i => (h.2 i).symm⟩

/-- Trees that agree with the same tree agree. -/
theorem trans (h : Agrees f t t') (h' : Agrees f t' t'') : Agrees f t t'' :=
  ⟨h'.1.trans h.1, fun i => (h'.2 i).trans (h.2 i)⟩

/-- Trees that agree in a view agree in whatever can be told from it. -/
theorem view (h : Agrees f t t') {g : Node α → γ} (k : β → γ) (hk : ∀ n, g n = k (f n)) : Agrees g t t' := by
  have hg : g = k ∘ f := funext hk
  refine ⟨h.1, fun i => ?_⟩
  rw [hg, ← Option.map_map, ← Option.map_map, h.2 i]

/-- The node at a place of the one tree has its counterpart in the other. -/
theorem get? (h : Agrees f t t') {i : NodeId} {n : Node α} (hn : t.get? i = some n) :
    ∃ n', t'.get? i = some n' ∧ f n' = f n := by
  have hi := h.2 i
  rw [hn, Option.map_some] at hi
  exact Option.map_eq_some_iff.mp hi

/-- Trees that agree have the same size. -/
theorem size_eq (h : Agrees f t t') : t'.size = t.size := by
  have hlt : ∀ i, i < t'.size ↔ i < t.size := by
    intro i
    rw [lt_size_iff, lt_size_iff]
    constructor
    · rintro ⟨n, hn⟩
      obtain ⟨m, hm, -⟩ := h.symm.get? hn
      exact ⟨m, hm⟩
    · rintro ⟨n, hn⟩
      obtain ⟨m, hm, -⟩ := h.get? hn
      exact ⟨m, hm⟩
  have h1 := hlt t.size
  have h2 := hlt t'.size
  omega

/-- Trees that agree have the same ids. -/
theorem contains_eq (h : Agrees f t t') (i : NodeId) : t'.contains i = t.contains i := by
  rw [contains, h.size_eq, contains]

/-- Trees that agree in two views agree in both together. -/
theorem pair (h : Agrees f t t') {g : Node α → γ} (hg : ∀ i, (t'.get? i).map g = (t.get? i).map g) :
    Agrees (fun n => (f n, g n)) t t' := by
  refine ⟨h.1, fun i => ?_⟩
  have hf := h.2 i
  have hgi := hg i
  cases hn : t.get? i with
  | none =>
    rw [hn, Option.map_none, Option.map_eq_none_iff] at hf
    rw [hf]
  | some n =>
    obtain ⟨n', hn', he⟩ := h.get? hn
    rw [hn, hn', Option.map_some, Option.map_some, Option.some.injEq] at hgi
    rw [hn', Option.map_some, Option.map_some, he, hgi]

/-- The same change of a node in both trees, where the view after it is told by the view before it. -/
theorem modify_both (h : Agrees f t t') (id : NodeId) (g : Node α → Node α) (hg : ∀ n n', f n' = f n → f (g n') = f (g n)) :
    Agrees f (t.modify id g) (t'.modify id g) := by
  refine ⟨h.1, fun i => ?_⟩
  have hi := h.2 i
  rw [get?_modify, get?_modify]
  split
  · cases hn : t.get? i with
    | none =>
      rw [hn, Option.map_none, Option.map_eq_none_iff] at hi
      rw [hi]
    | some n =>
      obtain ⟨n', hn', he⟩ := h.get? hn
      rw [hn', Option.map_some, Option.map_some, Option.map_some, Option.map_some, hg n n' he]
  · exact hi

/-- A change of one node that leaves the view alone. -/
theorem modify (t : Tree α) (id : NodeId) (g : Node α → Node α) (hg : ∀ n, f (g n) = f n) : Agrees f t (t.modify id g) := by
  refine ⟨rfl, fun i => ?_⟩
  rw [get?_modify]
  split
  · rw [Option.map_map, show f ∘ g = f from funext hg]
  · rfl

/-- A change of all nodes that leaves the view alone. -/
theorem map (t : Tree α) (g : Node α → Node α) (hg : ∀ n, f (g n) = f n) : Agrees f t (t.map g) := by
  refine ⟨rfl, fun i => ?_⟩
  rw [get?_map, Option.map_map, show f ∘ g = f from funext hg]

/-- Changes one after the other leave alone what each of them does. -/
theorem foldl {ι : Type} (step : Tree α → ι → Tree α) (h : ∀ t x, Agrees f t (step t x)) (xs : List ι) (t : Tree α) :
    Agrees f t (xs.foldl step t) := by
  induction xs generalizing t with
  | nil => exact refl f t
  | cons x xs ih => exact (h t x).trans (ih (step t x))

/-- Steps that leave a view alone do so one after the other, from the last on. -/
theorem foldr {ι : Type} (step : ι → Tree α → Tree α) (h : ∀ t x, Agrees f t (step x t)) (xs : List ι) (t : Tree α) :
    Agrees f t (xs.foldr step t) := by
  induction xs with
  | nil => exact refl f t
  | cons x xs ih => exact ih.trans (h _ x)

end Agrees

end DaxPlan.Tree
