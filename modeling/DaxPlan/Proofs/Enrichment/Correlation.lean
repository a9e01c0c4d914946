import DaxPlan.Proofs.Enrichment.Passes
import Mathlib.Algebra.BigOperators.Group.Finset.Piecewise
import Mathlib.Data.Finset.Dedup
import Mathlib.Data.List.Nodup
import Mathlib.Data.Rat.Defs

/-!
# First come, first served

The nodes that read a table queue for the events of that table: the first in pre-order takes the first event, the second the
second, for as long as there are events (`lookup_correlate`). Names interleave freely, and one queue does not see another. In
the plan that enrichment makes every node shows the times of the event it took and of no other (`physical_correlates`).
-/

namespace DaxPlan

variable {α : Type}

/-- A node tells the times of an event, or none at all without an event. -/
structure Node.Shows (n : Node α) (e : Option (Event α)) : Prop where
  duration : n.duration = e.map Event.duration
  cpuTime : n.cpuTime = e.map Event.cpuTime
  estimatedRows : n.estimatedRows = e.bind Event.estimatedRows
  estimatedKbytes : n.estimatedKbytes = e.bind Event.estimatedKbytes
  isCacheHit : n.isCacheHit = e.any Event.isCacheHit

namespace Enrichment

open DaxPlan.Tree

/-! ## Queues -/

/-- The members of a list that go by a name, in order: the nodes that wait for events of the name, or those events. -/
def keyed {γ : Type} (key? : γ → Option String) (key : String) (xs : List γ) : List γ := xs.filter (key? · == some key)

/-- The places of the events that are taken by a name, in order. -/
def places (key : String) (events : List (Event α)) : List Nat :=
  (events.zipIdx.filter (fun e => eventKey? e.1 == some key)).map Prod.snd

variable {key : String} {n : Node α} {nodes nodes' : List (Node α)} {e : Event α} {events rest : List (Event α)} {i j : Nat}

theorem keyed_cons_self {γ : Type} {key? : γ → Option String} {x : γ} (h : key? x = some key) (xs : List γ) :
    keyed key? key (x :: xs) = x :: keyed key? key xs :=
  List.filter_cons_of_pos (by rw [h, beq_self_eq_true])

theorem keyed_cons_other {γ : Type} {key? : γ → Option String} {x : γ} (h : key? x ≠ some key) (xs : List γ) :
    keyed key? key (x :: xs) = keyed key? key xs :=
  List.filter_cons_of_neg (by simpa using h)

/-- What is taken by a name is the head of its queue, and the other queues stay as they are. -/
theorem takeEvent?_some (h : takeEvent? key events = some (e, rest)) :
    keyed eventKey? key events = e :: keyed eventKey? key rest ∧
      ∀ other, other ≠ key → keyed eventKey? other rest = keyed eventKey? other events := by
  induction events generalizing rest with
  | nil => cases h
  | cons x events ih =>
    rw [takeEvent?] at h
    split at h
    next hx =>
      rw [Option.some.injEq, Prod.mk.injEq] at h
      obtain ⟨rfl, rfl⟩ := h
      have hx := eq_of_beq hx
      refine ⟨keyed_cons_self hx _, fun other hother => (keyed_cons_other ?_ _).symm⟩
      rw [hx]
      exact fun he => hother (Option.some.inj he).symm
    next hx =>
      have hx : eventKey? x ≠ some key := fun he => hx (beq_iff_eq.mpr he)
      obtain ⟨⟨e', rest'⟩, htaken, hrest⟩ := Option.map_eq_some_iff.mp h
      rw [Prod.mk.injEq] at hrest
      obtain ⟨rfl, rfl⟩ := hrest
      obtain ⟨hhead, hother⟩ := ih htaken
      refine ⟨by rw [keyed_cons_other hx _, keyed_cons_other hx _, hhead], fun other hne => ?_⟩
      by_cases hx' : eventKey? x = some other
      · rw [keyed_cons_self hx' _, keyed_cons_self hx' _, hother other hne]
      · rw [keyed_cons_other hx' _, keyed_cons_other hx' _, hother other hne]

/-- Nothing is taken only when nothing is left. -/
theorem takeEvent?_none (h : takeEvent? key events = none) : keyed eventKey? key events = [] := by
  induction events with
  | nil => rfl
  | cons x events ih =>
    rw [takeEvent?] at h
    split at h
    next => cases h
    next hx =>
      rw [keyed_cons_other (fun he => hx (beq_iff_eq.mpr he))]
      exact ih (Option.map_eq_none_iff.mp h)

/-! ## The nodes in turn -/

/-- A node takes the head of the queue for its name, or there is nothing for it to take. -/
theorem correlate_cons (n : Node α) (nodes : List (Node α)) (events : List (Event α)) :
    (∃ key e rest, nodeKey? n = some key ∧ correlate (n :: nodes) events = (n.id, e) :: correlate nodes rest ∧
      keyed eventKey? key events = e :: keyed eventKey? key rest ∧
      ∀ other, other ≠ key → keyed eventKey? other rest = keyed eventKey? other events) ∨
    (correlate (n :: nodes) events = correlate nodes events ∧
      ∀ key, nodeKey? n = some key → keyed eventKey? key events = []) := by
  rw [correlate]
  cases hkey : nodeKey? n with
  | none => exact Or.inr ⟨rfl, fun _ => nofun⟩
  | some key =>
    rw [Option.bind_some]
    cases htaken : takeEvent? key events with
    | none =>
      refine Or.inr ⟨rfl, fun key' he => ?_⟩
      rw [← Option.some.inj he]
      exact takeEvent?_none htaken
    | some taken => exact Or.inl ⟨key, taken.1, taken.2, rfl, rfl, takeEvent?_some htaken⟩

/-- Only nodes with a name take events, and each takes one at most. -/
theorem correlate_sublist (nodes : List (Node α)) (events : List (Event α)) :
    ((correlate nodes events).map Prod.fst).Sublist ((nodes.filter (fun n => (nodeKey? n).isSome)).map Node.id) := by
  induction nodes generalizing events with
  | nil => exact List.Sublist.refl []
  | cons n nodes ih =>
    obtain ⟨key, e, rest, hkey, heq, -⟩ | ⟨heq, -⟩ := correlate_cons n nodes events
    · rw [heq, List.filter_cons_of_pos (by rw [hkey]; rfl)]
      exact (ih rest).cons_cons n.id
    · rw [heq]
      exact (ih events).trans (((List.sublist_cons_self n nodes).filter _).map _)

theorem nodup_correlate (hids : (nodes.map Node.id).Nodup) (events : List (Event α)) :
    ((correlate nodes events).map Prod.fst).Nodup :=
  hids.sublist ((correlate_sublist nodes events).trans (List.filter_sublist.map _))

theorem lookup_correlate_none {id : NodeId} (h : id ∉ (nodes.filter (fun n => (nodeKey? n).isSome)).map Node.id)
    (events : List (Event α)) : (correlate nodes events).lookup id = none := by
  rw [List.lookup_eq_none_iff]
  intro pair hpair
  refine bne_iff_ne.mpr (fun he => h ?_)
  rw [he]
  exact (correlate_sublist nodes events).subset (List.mem_map_of_mem hpair)

/-- The node that is `j`-th in the queue of nodes takes the `j`-th event of the queue of events. -/
theorem lookup_correlate (hids : (nodes.map Node.id).Nodup) (events : List (Event α))
    (hn : (keyed nodeKey? key nodes)[j]? = some n) :
    (correlate nodes events).lookup n.id = (keyed eventKey? key events)[j]? := by
  induction nodes generalizing events j with
  | nil => cases hn
  | cons m nodes ih =>
    obtain ⟨hm, hids⟩ := List.nodup_cons.mp hids
    -- A node behind the first is another node, and its turn comes among the rest.
    have hbehind : ∀ k : Nat, (keyed nodeKey? key nodes)[k]? = some n → n.id ≠ m.id := by
      intro k hk he
      exact hm (he ▸ List.mem_map_of_mem (List.mem_of_mem_filter (List.mem_of_getElem? hk)))
    obtain ⟨key', e, rest, hkey', heq, hhead, hother⟩ | ⟨heq, hempty⟩ := correlate_cons m nodes events
    · rw [heq, List.lookup_cons]
      by_cases hkey : key' = key
      · subst hkey
        rw [keyed_cons_self hkey' _] at hn
        rw [hhead]
        cases j with
        | zero =>
          rw [List.getElem?_cons_zero, Option.some.injEq] at hn
          rw [hn, beq_self_eq_true, List.getElem?_cons_zero]
        | succ j =>
          rw [List.getElem?_cons_succ] at hn ⊢
          rw [beq_eq_false_iff_ne.mpr (hbehind j hn)]
          exact ih hids rest hn
      · rw [keyed_cons_other (fun he => hkey (Option.some.inj (hkey'.symm.trans he)))] at hn
        rw [beq_eq_false_iff_ne.mpr (hbehind j hn), ← hother key (fun he => hkey he.symm)]
        exact ih hids rest hn
    · rw [heq]
      by_cases hkey : nodeKey? m = some key
      · rw [keyed_cons_self hkey _] at hn
        rw [hempty key hkey]
        cases j with
        | zero =>
          rw [List.getElem?_cons_zero, Option.some.injEq] at hn
          rw [← hn]
          refine lookup_correlate_none (fun hmem => hm ?_) events
          exact (List.filter_sublist.map _).subset hmem
        | succ j =>
          rw [List.getElem?_cons_succ] at hn
          rw [ih hids events hn, hempty key hkey]
          rfl
      · rw [keyed_cons_other hkey _] at hn
        exact ih hids events hn

/-- A node without a name takes nothing. -/
theorem lookup_correlate_unnamed (hids : (nodes.map Node.id).Nodup) (events : List (Event α)) (hn : n ∈ nodes)
    (hkey : nodeKey? n = none) : (correlate nodes events).lookup n.id = none := by
  refine lookup_correlate_none (fun hmem => ?_) events
  obtain ⟨m, hm, hid⟩ := List.mem_map.mp hmem
  obtain ⟨hm, hsome⟩ := List.mem_filter.mp hm
  rw [List.inj_on_of_nodup_map hids hm hn hid, hkey] at hsome
  cases hsome

/-- Of each queue as many events are taken as there are nodes for. -/
theorem length_correlate (keys : Finset String) (hkeys : ∀ n ∈ nodes, ∀ key, nodeKey? n = some key → key ∈ keys)
    (events : List (Event α)) :
    (correlate nodes events).length =
      ∑ key ∈ keys, min (keyed nodeKey? key nodes).length (keyed eventKey? key events).length := by
  induction nodes generalizing events with
  | nil =>
    symm
    exact Finset.sum_eq_zero (fun key _ => Nat.zero_min _)
  | cons n nodes ih =>
    have hkeys' := fun m hm => hkeys m (List.mem_cons_of_mem n hm)
    obtain ⟨key, e, rest, hkey, heq, hhead, hother⟩ | ⟨heq, hempty⟩ := correlate_cons n nodes events
    · have hterm : ∀ k, min (keyed nodeKey? k (n :: nodes)).length (keyed eventKey? k events).length =
          min (keyed nodeKey? k nodes).length (keyed eventKey? k rest).length + if k = key then 1 else 0 := by
        intro k
        by_cases hk : k = key
        · rw [hk, keyed_cons_self hkey _, hhead, if_pos rfl]
          exact Nat.succ_min_succ _ _
        · rw [keyed_cons_other (fun he => hk (Option.some.inj (he.symm.trans hkey))), hother k hk, if_neg hk]
          rfl
      rw [heq, List.length_cons, ih hkeys' rest, Finset.sum_congr rfl (fun k _ => hterm k), Finset.sum_add_distrib,
        Finset.sum_ite_eq', if_pos (hkeys n List.mem_cons_self key hkey)]
    · have hterm : ∀ k, min (keyed nodeKey? k (n :: nodes)).length (keyed eventKey? k events).length =
          min (keyed nodeKey? k nodes).length (keyed eventKey? k events).length := by
        intro k
        by_cases hk : nodeKey? n = some k
        · rw [hempty k hk, List.length_nil, Nat.min_zero, Nat.min_zero]
        · rw [keyed_cons_other hk _]
      rw [heq, ih hkeys' events, Finset.sum_congr rfl (fun k _ => hterm k)]

/-- What is taken is told by the ids and the names of the nodes. -/
theorem correlate_congr (h : nodes'.map (fun n => (n.id, nodeKey? n)) = nodes.map (fun n => (n.id, nodeKey? n)))
    (events : List (Event α)) : correlate nodes' events = correlate nodes events := by
  induction nodes generalizing nodes' events with
  | nil =>
    rw [List.map_nil, List.map_eq_nil_iff] at h
    rw [h]
  | cons n nodes ih =>
    obtain ⟨n', rest', rfl, hn, hrest⟩ := List.map_eq_cons_iff.mp h
    rw [Prod.mk.injEq] at hn
    rw [correlate, correlate, hn.1, hn.2]
    split
    · rw [ih hrest]
    · exact ih hrest events

/-! ## Places of events -/

theorem mem_places : i ∈ places key events ↔ ∃ e, events[i]? = some e ∧ eventKey? e = some key := by
  unfold places
  constructor
  · intro hi
    obtain ⟨⟨e, k⟩, he, rfl⟩ := List.mem_map.mp hi
    obtain ⟨he, hkey⟩ := List.mem_filter.mp he
    exact ⟨e, List.mem_zipIdx_iff_getElem?.mp he, eq_of_beq hkey⟩
  · rintro ⟨e, he, hkey⟩
    refine List.mem_map.mpr ⟨(e, i), List.mem_filter.mpr ⟨List.mem_zipIdx_iff_getElem?.mpr he, ?_⟩, rfl⟩
    exact beq_iff_eq.mpr hkey

theorem nodup_places (key : String) (events : List (Event α)) : (places key events).Nodup := by
  have hall : (events.zipIdx.map Prod.snd).Nodup := by
    rw [List.zipIdx_map_snd]
    exact List.nodup_range'
  exact hall.sublist (List.filter_sublist.map _)

theorem keyed_eq_places (key : String) (events : List (Event α)) :
    keyed eventKey? key events = (events.zipIdx.filter (fun e => eventKey? e.1 == some key)).map Prod.fst := by
  rw [keyed]
  nth_rewrite 1 [← List.zipIdx_map_fst 0 events]
  exact List.filter_map

/-- The queue of events is the queue of their places. -/
theorem getElem?_places (key : String) (events : List (Event α)) (j : Nat) :
    (keyed eventKey? key events)[j]? = (places key events)[j]?.bind (events[·]?) := by
  rw [keyed_eq_places, places, List.getElem?_map, List.getElem?_map]
  cases hj : (events.zipIdx.filter (fun e => eventKey? e.1 == some key))[j]? with
  | none => rfl
  | some pair =>
    have hpair := List.mem_of_mem_filter (List.mem_of_getElem? hj)
    exact (List.mem_zipIdx_iff_getElem?.mp hpair).symm

theorem length_places (key : String) (events : List (Event α)) :
    (keyed eventKey? key events).length = (places key events).length := by
  rw [keyed_eq_places, places, List.length_map, List.length_map]

/-! ## Enriched plans -/

/-- The place of the event that comes to a node. -/
def source (nodes : List (Node α)) (events : List (Event α)) (n : Node α) : Option Nat :=
  (nodeKey? n).bind (fun key => (places key events)[((keyed nodeKey? key nodes).map Node.id).idxOf n.id]?)

theorem source_unnamed (nodes : List (Node α)) (events : List (Event α)) (h : nodeKey? n = none) :
    source nodes events n = none := by
  rw [source, h, Option.bind_none]

/-- The event at the `j`-th place comes to the node that is `j`-th in the queue. -/
theorem source_turn (hids : (nodes.map Node.id).Nodup) (events : List (Event α))
    (hn : (keyed nodeKey? key nodes)[j]? = some n) : source nodes events n = (places key events)[j]? := by
  have hkey : nodeKey? n = some key := eq_of_beq (List.mem_filter.mp (List.mem_of_getElem? hn)).2
  have hturn : ((keyed nodeKey? key nodes).map Node.id).idxOf n.id = j := by
    have hj : ((keyed nodeKey? key nodes).map Node.id)[j]? = some n.id := by
      rw [List.getElem?_map, hn, Option.map_some]
    obtain ⟨hlt, he⟩ := List.getElem?_eq_some_iff.mp hj
    rw [← he]
    exact (hids.sublist (List.filter_sublist.map _)).idxOf_getElem j hlt
  rw [source, hkey, Option.bind_some, hturn]

/-- A node with a name has its turn among the nodes of the name. -/
theorem exists_turn (hn : n ∈ nodes) (hkey : nodeKey? n = some key) : ∃ j : Nat, (keyed nodeKey? key nodes)[j]? = some n :=
  List.mem_iff_getElem?.mp (List.mem_filter.mpr ⟨hn, beq_iff_eq.mpr hkey⟩)

/-- The event that comes to a node is of the name of the node. -/
theorem eventKey?_source (hids : (nodes.map Node.id).Nodup) (hn : n ∈ nodes) (hi : source nodes events n = some i) :
    ∃ key e, nodeKey? n = some key ∧ events[i]? = some e ∧ eventKey? e = some key := by
  cases hkey : nodeKey? n with
  | none =>
    rw [source_unnamed nodes events hkey] at hi
    cases hi
  | some key =>
    obtain ⟨j, hj⟩ := exists_turn hn hkey
    rw [source_turn hids events hj] at hi
    obtain ⟨e, he, hkey'⟩ := mem_places.mp (List.mem_of_getElem? hi)
    exact ⟨key, e, rfl, he, hkey'⟩

/-- An event comes to one node only. -/
theorem source_inj (hids : (nodes.map Node.id).Nodup) {m : Node α} (hn : n ∈ nodes) (hm : m ∈ nodes)
    (hi : source nodes events n = some i) (hi' : source nodes events m = some i) : n = m := by
  obtain ⟨key, e, hkey, he, hekey⟩ := eventKey?_source hids hn hi
  obtain ⟨key', e', hkey', he', hekey'⟩ := eventKey?_source hids hm hi'
  have hsame : key' = key := by
    rw [Option.some.inj (he'.symm.trans he), hekey, Option.some.injEq] at hekey'
    exact hekey'.symm
  subst hsame
  obtain ⟨j, hj⟩ := exists_turn hn hkey
  obtain ⟨j', hj'⟩ := exists_turn hm hkey'
  rw [source_turn hids events hj] at hi
  rw [source_turn hids events hj'] at hi'
  have hturn : j = j' :=
    (List.getElem?_inj (List.getElem?_eq_some_iff.mp hi).1 (nodup_places key' events)).mp (hi.trans hi'.symm)
  rw [← hturn, hj, Option.some.injEq] at hj'
  exact hj'

/-- The event that a node takes is the one that comes to it. -/
theorem lookup_eq_source (hids : (nodes.map Node.id).Nodup) (events : List (Event α)) (hn : n ∈ nodes) :
    (correlate nodes events).lookup n.id = (source nodes events n).bind (events[·]?) := by
  cases hkey : nodeKey? n with
  | none => rw [lookup_correlate_unnamed hids events hn hkey, source_unnamed nodes events hkey, Option.bind_none]
  | some key =>
    obtain ⟨j, hj⟩ := exists_turn hn hkey
    rw [lookup_correlate hids events hj, source_turn hids events hj, getElem?_places]

theorem shows_of_uncharged {m : Node α} {e : Option (Event α)} (h : n.uncharged = m.uncharged) (hm : m.Shows e) :
    n.Shows e where
  duration := (congrArg Node.duration h).trans hm.duration
  cpuTime := (congrArg Node.cpuTime h).trans hm.cpuTime
  estimatedRows := (congrArg Node.estimatedRows h).trans hm.estimatedRows
  estimatedKbytes := (congrArg Node.estimatedKbytes h).trans hm.estimatedKbytes
  isCacheHit := (congrArg Node.isCacheHit h).trans hm.isCacheHit

/-- A node without times tells those of the event that it takes. -/
theorem shows_of_untimed (h : n.untimed = n) (e : Option (Event α)) : (e.elim n (fun e => applyEvent e n)).Shows e := by
  cases e with
  | none => exact h ▸ ⟨rfl, rfl, rfl, rfl, rfl⟩
  | some e => exact ⟨rfl, rfl, rfl, rfl, rfl⟩

variable [Quantity α]

/-- The nodes of the plan go by the names given to the rows. -/
theorem Enriched.keys {rows : List Row} {resolver : Option Resolver} {plan : Plan α}
    (h : Enriched rows events resolver plan) :
    plan.nodes.map (fun n => (n.id, nodeKey? n)) =
      (namedNodes rows resolver : List (Node α)).map (fun n => (n.id, nodeKey? n)) := by
  rw [Plan.nodes, h.allNodes]
  have hnamed := h.agrees (fun n => (n.id, nodeKey? n)) (fun _ _ => rfl) (fun _ => rfl)
  exact nodesAt_congr hnamed _

/-- What is taken is taken by the nodes of the plan. -/
theorem Enriched.taken_eq {rows : List Row} {resolver : Option Resolver} {plan : Plan α}
    (h : Enriched rows events resolver plan) : taken rows events resolver = correlate plan.nodes events :=
  (correlate_congr h.keys events).symm

/-- The node at a place tells the times of the event that it takes. -/
theorem Enriched.shows_taken {rows : List Row} {resolver : Option Resolver} {plan : Plan α}
    (h : Enriched rows events resolver plan) (hn : plan.tree.get? i = some n) :
    n.Shows ((taken rows events resolver).lookup i) := by
  obtain ⟨m, hm, huncharged⟩ := h.tree.symm.get? hn
  rw [applyEvents, get?_foldl_modify_pairs applyEvent _
    (by rw [h.taken_eq]; exact nodup_correlate h.walked.nodup_ids events)] at hm
  obtain ⟨m', hm', rfl⟩ := Option.map_eq_some_iff.mp hm
  exact shows_of_uncharged huncharged.symm (shows_of_untimed (namedTree_untimed hm') _)

/-- Each node tells the times of the event that comes to it. -/
theorem Enriched.shows {rows : List Row} {resolver : Option Resolver} {plan : Plan α}
    (h : Enriched rows events resolver plan) (hn : n ∈ plan.nodes) :
    n.Shows ((source plan.nodes events n).bind (events[·]?)) := by
  rw [← lookup_eq_source h.walked.nodup_ids events hn, ← h.taken_eq]
  exact h.shows_taken (h.walked.get?_id hn)

/-- Enrichment with a valid total and valid events makes a plan, and in it the nodes take the events of their tables in turn:
the `j`-th node in pre-order that takes events by a name tells the times of the `j`-th event of the name, and all others tell
none. No event comes to two nodes or to a node without a name, and the number of queries is what the queues have in common. -/
theorem physical_correlates (enricher : Enricher) (rows : List Row) (events : List (Event α)) (resolver : Option Resolver)
    (correlationId : String) (total : α) (hfinite : Quantity.isFinite total = true)
    (hsign : Quantity.lt total Quantity.zero = false) (hevents : ∀ e ∈ events, e.flaw? = none) :
    ∃ plan, enricher.physical rows events resolver correlationId total = .ok plan ∧
      plan.tree.Spanning ∧ plan.allNodes = plan.tree.preOrder ∧
      ∃ source : Node α → Option Nat,
        (∀ key (j : Nat) n, (keyed nodeKey? key plan.nodes)[j]? = some n → source n = (places key events)[j]?) ∧
        (∀ n ∈ plan.nodes, nodeKey? n = none → source n = none) ∧
        (∀ n ∈ plan.nodes, n.Shows ((source n).bind (events[·]?))) ∧
        (∀ n ∈ plan.nodes, ∀ m ∈ plan.nodes, ∀ i, source n = some i → source m = some i → n = m) ∧
        (∀ n ∈ plan.nodes, ∀ i, source n = some i → ∃ e, events[i]? = some e ∧ e.objectName ≠ none) ∧
        plan.storageEngineQueryCount = ∑ key ∈ (plan.nodes.filterMap nodeKey?).toFinset,
          min (keyed nodeKey? key plan.nodes).length (places key events).length := by
  obtain ⟨plan, hplan, henriched⟩ := physical_spec enricher rows events resolver correlationId total
    (validate_eq_ok hfinite hsign hevents)
  have hids := henriched.walked.nodup_ids
  refine ⟨plan, hplan, henriched.walked.spanning, henriched.walked.allNodes, source plan.nodes events, ?turn, ?unnamed,
    ?shows, ?once, ?named, ?count⟩
  case turn => exact fun key j n hn => source_turn hids events hn
  case unnamed => exact fun n _ hkey => source_unnamed plan.nodes events hkey
  case shows => exact fun n hn => henriched.shows hn
  case once => exact fun n hn m hm i hi hi' => source_inj hids hn hm hi hi'
  case named =>
    intro n hn i hi
    obtain ⟨key, e, -, he, hkey⟩ := eventKey?_source hids hn hi
    refine ⟨e, he, fun hname => ?_⟩
    rw [eventKey?, hname] at hkey
    cases hkey
  case count =>
    have hkeys : ∀ n ∈ plan.nodes, ∀ key, nodeKey? n = some key → key ∈ (plan.nodes.filterMap nodeKey?).toFinset :=
      fun n hn key hkey => List.mem_toFinset.mpr (List.mem_filterMap.mpr ⟨n, hn, hkey⟩)
    rw [henriched.queryCount, henriched.taken_eq, length_correlate _ hkeys]
    exact Finset.sum_congr rfl (fun key _ => by rw [length_places])

/-- Two rows read one table, and there is one event for it: the first row takes it, and the event without a name is left. -/
theorem physical_correlates_sales :
    let row (details : String) : Row := ⟨1, 0, "Scan_Vertipaq", details, .storageScan, none, none⟩
    let events : List (Event Rat) := [Event.ofDuration none "" 4, Event.ofDuration (some "SALES") "" 3]
    (∀ e ∈ events, e.flaw? = none) ∧
      ∃ plan, ({} : Enricher).physical [row "'Sales'[A]", row "'sales'[B]"] events none "" 10 = .ok plan ∧
        (∃ source : Node Rat → Option Nat, ∀ n ∈ plan.nodes, n.Shows ((source n).bind (events[·]?))) ∧
        plan.nodes.map Node.duration = [none, some 3, none] ∧ plan.storageEngineQueryCount = 1 := by
  intro row events
  have hevents : ∀ e ∈ events, e.flaw? = none := by decide +kernel
  obtain ⟨plan, hplan, -, -, source, -, -, hshows, -⟩ :=
    physical_correlates {} [row "'Sales'[A]", row "'sales'[B]"] events none "" 10 rfl rfl hevents
  have hvalues : (({} : Enricher).physical [row "'Sales'[A]", row "'sales'[B]"] events none "" 10).toOption.map
      (fun p => (p.nodes.map Node.duration, p.storageEngineQueryCount)) = some ([none, some 3, none], 1) := by decide +kernel
  rw [hplan] at hvalues
  obtain ⟨hdurations, hcount⟩ := Prod.mk.inj (Option.some.inj hvalues)
  exact ⟨hevents, plan, hplan, ⟨source, hshows⟩, hdurations, hcount⟩

end Enrichment

end DaxPlan
