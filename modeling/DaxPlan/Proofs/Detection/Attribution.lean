import DaxPlan.Detection
import DaxPlan.Proofs.Tree.Agreement
import Mathlib.Data.List.Nodup

/-!
# Whose issues

A plan keeps the issues, and each node the places of its own among them. `Plan.Attributed` says that a node knows all the issues
about it, in the order they were recorded; to record one more keeps it (`Attributed.addIssue`), and so does a detection
(`Attributed.detect`). The rules look at one node at a time: what they find about a node is what they find at it
(`findIssues_about`), and a storage engine row whose query calls back for every row has one issue that says so
(`callbacks_issuesOf`).
-/

namespace DaxPlan

namespace Plan

variable {α : Type} {p : Plan α}

/-- The issues that a node refers to. -/
def issuesAt (p : Plan α) (n : Node α) : List (Issue α) := n.issues.filterMap (p.issues[·]?)

/-- The places of the issues about a node. -/
def placesAbout (issues : List (Issue α)) (id : NodeId) : List Nat :=
  (issues.zipIdx.filter (fun i => i.1.node == id)).map Prod.snd

/-- Each node refers to the issues about it, in the order they were recorded, and to no others. -/
def Attributed (p : Plan α) : Prop := ∀ id n, p.tree.get? id = some n → n.issues = placesAbout p.issues id

theorem placesAbout_snoc (issues : List (Issue α)) (issue : Issue α) (id : NodeId) :
    placesAbout (issues ++ [issue]) id = placesAbout issues id ++ if issue.node = id then [issues.length] else [] := by
  rw [placesAbout, placesAbout, List.zipIdx_append, List.filter_append, List.map_append, Nat.zero_add, List.zipIdx_singleton,
    List.filter_singleton]
  by_cases hid : issue.node = id
  · rw [if_pos hid, beq_iff_eq.mpr hid]
    rfl
  · rw [if_neg hid, beq_eq_false_iff_ne.mpr hid]
    rfl

/-- At the places of the issues about a node those issues stand. -/
theorem filterMap_placesAbout (issues : List (Issue α)) (id : NodeId) :
    (placesAbout issues id).filterMap (issues[·]?) = issues.filter (·.node == id) := by
  have hplaced : ∀ i ∈ issues.zipIdx.filter (fun i => i.1.node == id), issues[i.2]? = some i.1 := by
    intro i hi
    exact List.mem_zipIdx_iff_getElem?.mp (List.mem_of_mem_filter hi)
  calc (placesAbout issues id).filterMap (issues[·]?)
    _ = (issues.zipIdx.filter (fun i => i.1.node == id)).filterMap (fun i => issues[i.2]?) := List.filterMap_map
    _ = (issues.zipIdx.filter (fun i => i.1.node == id)).filterMap (some ∘ Prod.fst) := List.filterMap_congr hplaced
    _ = (issues.zipIdx.filter (fun i => i.1.node == id)).map Prod.fst := by rw [List.filterMap_eq_map]
    _ = (issues.zipIdx.map Prod.fst).filter (·.node == id) := by
      rw [List.filter_map]
      rfl
    _ = issues.filter (·.node == id) := by rw [List.zipIdx_map_fst]

namespace Attributed

/-- Where no issue is recorded, none is referred to. -/
theorem of_no_issues (hp : p.issues = []) (hn : ∀ id n, p.tree.get? id = some n → n.issues = []) : p.Attributed := by
  intro id n hget
  rw [hn id n hget, hp]
  rfl

/-- The issues that a node refers to are those about it. -/
theorem issuesAt_eq (h : p.Attributed) {id : NodeId} {n : Node α} (hn : p.tree.get? id = some n) :
    p.issuesAt n = p.issues.filter (·.node == id) := by
  rw [issuesAt, h id n hn]
  exact filterMap_placesAbout p.issues id

/-- One more issue is recorded. -/
theorem addIssue (h : p.Attributed) (issue : Issue α) : (p.addIssue issue).Attributed := by
  intro id n hn
  change (p.tree.modify issue.node _).get? id = some n at hn
  change n.issues = placesAbout (p.issues ++ [issue]) id
  rw [placesAbout_snoc]
  rw [Tree.get?_modify] at hn
  split at hn
  next hid =>
    obtain ⟨m, hm, rfl⟩ := Option.map_eq_some_iff.mp hn
    rw [if_pos hid, ← h id m hm]
  next hid => rw [if_neg hid, List.append_nil, h id n hn]

theorem foldl_addIssue (h : p.Attributed) (found : List (Issue α)) : (found.foldl Plan.addIssue p).Attributed := by
  induction found generalizing p with
  | nil => exact h
  | cons issue found ih => exact ih (h.addIssue issue)

/-- A detection records issues. -/
theorem detect [Quantity α] (h : p.Attributed) (thresholds : IssueThresholds) (queries : NodeId → Option QueryInfo) :
    (p.detect thresholds queries).1.Attributed :=
  h.foldl_addIssue _

end Attributed

end Plan

namespace Detection

variable {α : Type} {n : Node α} {issue : Issue α} {info : Option QueryInfo}

/-! ## What the rules find -/

theorem materialization?_eq_some [Quantity α] {thresholds : IssueThresholds}
    (h : materialization? thresholds n = some issue) : issue.node = n.id ∧ issue.kind = .excessiveMaterialization := by
  obtain ⟨-, -, h⟩ := Option.bind_eq_some_iff.mp h
  obtain ⟨records, -, h⟩ := Option.bind_eq_some_iff.mp h
  obtain ⟨found, -, h⟩ := Option.bind_eq_some_iff.mp h
  cases h
  exact ⟨rfl, rfl⟩

theorem callback?_eq_some (h : callback? n info = some issue) : issue.node = n.id ∧ issue.kind = .callbackDataId := by
  obtain ⟨info, -, h⟩ := Option.bind_eq_some_iff.mp h
  obtain ⟨-, -, h⟩ := Option.bind_eq_some_iff.mp h
  cases h
  exact ⟨rfl, rfl⟩

/-- A callback is reported at a storage engine row whose query makes it for every row. -/
theorem isSome_callback? (n : Node α) (info : Option QueryInfo) :
    (callback? n info).isSome = (n.engine.isStorage && info.any QueryInfo.hasPerRowCallback) := by
  cases info with
  | none => exact (Bool.and_false _).symm
  | some info =>
    change (Option.bind (guard ((n.engine.isStorage && info.hasPerRowCallback) = true)) _).isSome = _
    rw [Option.any_some]
    cases n.engine.isStorage && info.hasPerRowCallback <;> rfl

variable [Quantity α]

theorem node_issuesOf {thresholds : IssueThresholds} {queries : NodeId → Option QueryInfo}
    (h : issue ∈ issuesOf thresholds queries n) : issue.node = n.id := by
  rcases List.mem_append.mp h with h | h
  · exact (materialization?_eq_some (Option.mem_toList.mp h)).1
  · exact (callback?_eq_some (Option.mem_toList.mp h)).1

/-- Among the issues of a node there is one of a callback at most. -/
theorem callbacks_issuesOf (thresholds : IssueThresholds) (queries : NodeId → Option QueryInfo) (n : Node α) :
    (issuesOf thresholds queries n).filter (·.kind == .callbackDataId) = (callback? n (queries n.id)).toList := by
  have hmaterialization : (materialization? thresholds n).toList.filter (·.kind == .callbackDataId) = [] := by
    rw [List.filter_eq_nil_iff]
    intro issue hissue
    rw [(materialization?_eq_some (Option.mem_toList.mp hissue)).2]
    exact Bool.false_ne_true
  have hcallback : (callback? n (queries n.id)).toList.filter (·.kind == .callbackDataId) =
      (callback? n (queries n.id)).toList := by
    rw [List.filter_eq_self]
    intro issue hissue
    rw [(callback?_eq_some (Option.mem_toList.mp hissue)).2]
    rfl
  rw [issuesOf, List.filter_append, hmaterialization, hcallback, List.nil_append]

/-- What the rules find about a node they find at it. -/
theorem findIssues_about {p : Plan α} (thresholds : IssueThresholds) (queries : NodeId → Option QueryInfo)
    (hids : (p.nodes.map Node.id).Nodup) (hn : n ∈ p.nodes) :
    (p.findIssues thresholds queries).filter (·.node == n.id) = issuesOf thresholds queries n := by
  obtain ⟨above, below, hnodes⟩ := List.append_of_mem hn
  rw [hnodes, List.map_append, List.map_cons, List.nodup_middle, List.nodup_cons, ← List.map_append] at hids
  -- Nothing that is found at the other nodes is about this one.
  have hothers : ∀ others, others ⊆ above ++ below →
      (others.flatMap (issuesOf thresholds queries)).filter (·.node == n.id) = [] := by
    intro others hsubset
    rw [List.filter_eq_nil_iff]
    intro issue hissue he
    obtain ⟨m, hm, hissue⟩ := List.mem_flatMap.mp hissue
    rw [node_issuesOf hissue, beq_iff_eq] at he
    exact hids.1 (he ▸ List.mem_map_of_mem (hsubset hm))
  have hself : (issuesOf thresholds queries n).filter (·.node == n.id) = issuesOf thresholds queries n := by
    rw [List.filter_eq_self]
    exact fun issue hissue => beq_iff_eq.mpr (node_issuesOf hissue)
  rw [Plan.findIssues, hnodes, List.flatMap_append, List.flatMap_cons, List.filter_append, List.filter_append,
    hothers above (List.subset_append_left above below), hothers below (List.subset_append_right above below), hself,
    List.append_nil, List.nil_append]

end Detection

end DaxPlan
