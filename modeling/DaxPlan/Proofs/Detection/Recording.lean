import DaxPlan.Proofs.Enrichment.Explanation

/-!
# Recording issues

Issues are recorded one by one, or by a detection that finds them. However often and in whatever order that is done, the list of
the plan and the lists of its nodes stay in step (`recordings_agree`): a node refers to the issues about it, in the order of the
plan's list, and an issue about a node that is not there is on the plan alone.

What a detection appends is told by the nodes of the plan alone, and not by what has been recorded before
(`findIssues_reported`). At each node the rules report a spool that holds too many records (`SpoolReport`), and then a storage
engine row whose query calls back for every row (`CallbackReport`).
-/

namespace DaxPlan

namespace Detection

variable {α : Type} [Quantity α] {thresholds : IssueThresholds} {queries : NodeId → Option QueryInfo} {n : Node α}

/-! ## What the rules report -/

/-- An issue about the records of a spool: how serious it is, and the threshold that the count exceeds. -/
structure Oversize (n : Node α) (records : Nat) (severity : Severity) (threshold : Nat) (issue : Issue α) : Prop where
  kind : issue.kind = .excessiveMaterialization
  severity : issue.severity = severity
  node : issue.node = n.id
  metric : issue.metric = some (Quantity.ofNat records, Quantity.ofNat threshold)
  description : issue.description = s!"{n.operation} materializes {records} records (threshold {threshold})"

/-- What the first rule reports. The error threshold is looked at before that for warnings, whichever of them is the larger. -/
inductive SpoolReport (thresholds : IssueThresholds) (n : Node α) : List (Issue α) → Prop where
  | error {records : Nat} {issue : Issue α} :
      n.operator = .spool ∨ n.operator = .spoolLookup → n.recordCount = some records → thresholds.errorRecords < records →
      Oversize n records .error thresholds.errorRecords issue → SpoolReport thresholds n [issue]
  | warning {records : Nat} {issue : Issue α} :
      n.operator = .spool ∨ n.operator = .spoolLookup → n.recordCount = some records → records ≤ thresholds.errorRecords →
      thresholds.warningRecords < records → Oversize n records .warning thresholds.warningRecords issue →
      SpoolReport thresholds n [issue]
  | nothing :
      (∀ records, n.operator = .spool ∨ n.operator = .spoolLookup → n.recordCount = some records →
        records ≤ thresholds.errorRecords ∧ records ≤ thresholds.warningRecords) → SpoolReport thresholds n []

/-- The query that was scanned for a storage engine row makes the callback that is made for every row. -/
def CallsBack (n : Node α) (query : Option QueryInfo) : Prop :=
  (n.engine = .storageEngine ∨ n.engine = .directQuery) ∧
    ∃ info, query = some info ∧ info.primaryCallback = some .callbackDataId

/-- What the second rule reports. -/
inductive CallbackReport (n : Node α) (query : Option QueryInfo) : List (Issue α) → Prop where
  | warning {issue : Issue α} :
      CallsBack n query → issue.kind = .callbackDataId → issue.severity = .warning → issue.node = n.id →
      issue.description =
        "Storage engine query" ++ n.objectName.elim "" (fun table => s!" on '{table}'") ++ " uses CallbackDataID" →
      CallbackReport n query [issue]
  | nothing : ¬CallsBack n query → CallbackReport n query []

/-- What the rules report at a node, in their order. -/
def Reported (thresholds : IssueThresholds) (queries : NodeId → Option QueryInfo) (n : Node α) (issues : List (Issue α)) :
    Prop :=
  ∃ first second, issues = first ++ second ∧ SpoolReport thresholds n first ∧ CallbackReport n (queries n.id) second

theorem isMaterializing_iff {o : Operator} : o.isMaterializing = true ↔ o = .spool ∨ o = .spoolLookup := by
  cases o <;> simp [Operator.isMaterializing]

theorem isStorage_iff {e : Engine} : e.isStorage = true ↔ e = .storageEngine ∨ e = .directQuery := by
  cases e <;> simp [Engine.isStorage]

theorem hasPerRowCallback_iff {info : QueryInfo} :
    info.hasPerRowCallback = true ↔ info.primaryCallback = some .callbackDataId := by
  cases h : info.primaryCallback <;> simp [QueryInfo.hasPerRowCallback, Callback.isPerRow, h]

theorem spoolReport (thresholds : IssueThresholds) (n : Node α) :
    SpoolReport thresholds n (materialization? thresholds n).toList := by
  by_cases hspool : n.operator.isMaterializing = true
  · cases hrecords : n.recordCount with
    | none =>
      have hnone : materialization? thresholds n = none := by
        simp [materialization?, hrecords]
      rw [hnone]
      exact .nothing (fun records _ h => by cases hrecords.symm.trans h)
    | some records =>
      have hrule : materialization? thresholds n = (exceeded? thresholds records).map (fun found =>
          { kind := .excessiveMaterialization, severity := found.1, node := n.id
            description := s!"{n.operation} materializes {records} records (threshold {found.2})"
            remediation := some materializationRemediation
            metric := some (Quantity.ofNat records, Quantity.ofNat found.2) }) := by
        simp [materialization?, hspool, hrecords, guard]
        cases exceeded? thresholds records <;> rfl
      rw [hrule, exceeded?]
      by_cases herror : thresholds.errorRecords < records
      · rw [if_pos herror]
        exact .error (isMaterializing_iff.mp hspool) hrecords herror ⟨rfl, rfl, rfl, rfl, rfl⟩
      · rw [if_neg herror]
        by_cases hwarning : thresholds.warningRecords < records
        · rw [if_pos hwarning]
          exact .warning (isMaterializing_iff.mp hspool) hrecords (by omega) hwarning ⟨rfl, rfl, rfl, rfl, rfl⟩
        · rw [if_neg hwarning]
          refine .nothing (fun other _ h => ?_)
          obtain rfl := Option.some.inj (hrecords.symm.trans h)
          omega
  · have hnone : materialization? thresholds n = none := by
      simp [materialization?, hspool, guard]
    rw [hnone]
    exact .nothing (fun records h => absurd (isMaterializing_iff.mpr h) hspool)

theorem callbackReport {α : Type} (n : Node α) (query : Option QueryInfo) : CallbackReport n query (callback? n query).toList := by
  have hsome : (callback? n query).isSome = true ↔ CallsBack n query := by
    rw [isSome_callback?, Bool.and_eq_true, isStorage_iff, Option.any_eq_true]
    simp only [CallsBack, hasPerRowCallback_iff]
  cases hfound : callback? n query with
  | none =>
    rw [hfound] at hsome
    exact .nothing (fun h => nomatch hsome.mpr h)
  | some issue =>
    rw [hfound] at hsome
    obtain ⟨hnode, hkind⟩ := callback?_eq_some hfound
    refine .warning (hsome.mp rfl) hkind ?_ hnode ?_
    · obtain ⟨_, -, h⟩ := Option.bind_eq_some_iff.mp hfound
      obtain ⟨_, -, h⟩ := Option.bind_eq_some_iff.mp h
      cases h
      rfl
    · obtain ⟨_, -, h⟩ := Option.bind_eq_some_iff.mp hfound
      obtain ⟨_, -, h⟩ := Option.bind_eq_some_iff.mp h
      cases h
      cases n.objectName <;> rfl

theorem reported_issuesOf (thresholds : IssueThresholds) (queries : NodeId → Option QueryInfo) (n : Node α) :
    Reported thresholds queries n (issuesOf thresholds queries n) :=
  ⟨_, _, rfl, spoolReport thresholds n, callbackReport n (queries n.id)⟩

end Detection

/-! ## Recordings -/

/-- A way to record issues on a plan: one that is given, or those that the rules find. -/
inductive Recording (α : Type) where
  | add (issue : Issue α)
  | detect (thresholds : IssueThresholds) (queries : NodeId → Option QueryInfo)

variable {α : Type} [Quantity α] {p : Plan α} {id : NodeId} {n : Node α}

namespace Recording

/-- The plan with what is recorded. -/
def perform (p : Plan α) : Recording α → Plan α
  | add issue => p.addIssue issue
  | detect thresholds queries => (p.detect thresholds queries).1

/-- The plan with one recording after the other. -/
def run (p : Plan α) (recordings : List (Recording α)) : Plan α := recordings.foldl perform p

theorem perform_attributed (h : p.Attributed) (r : Recording α) : (r.perform p).Attributed := by
  cases r with
  | add issue => exact h.addIssue issue
  | detect thresholds queries => exact h.detect thresholds queries

theorem run_attributed (h : p.Attributed) (recordings : List (Recording α)) : (run p recordings).Attributed := by
  induction recordings generalizing p with
  | nil => exact h
  | cons r recordings ih => exact ih (perform_attributed h r)

/-- A recording changes the lists of issues, and nothing else. -/
theorem perform_spec (p : Plan α) (r : Recording α) :
    ∃ t found, Tree.Agrees Node.undiagnosed p.tree t ∧ r.perform p = { p with tree := t, issues := p.issues ++ found } := by
  cases r with
  | add issue => exact ⟨_, [issue], p.addIssue_agrees issue, rfl⟩
  | detect thresholds queries =>
    obtain ⟨t, hagrees, hplan⟩ := p.detect_spec thresholds queries
    exact ⟨t, _, hagrees, hplan⟩

theorem run_spec (p : Plan α) (recordings : List (Recording α)) :
    ∃ t found, Tree.Agrees Node.undiagnosed p.tree t ∧
      run p recordings = { p with tree := t, issues := p.issues ++ found } := by
  induction recordings generalizing p with
  | nil => exact ⟨p.tree, [], Tree.Agrees.refl _ _, by rw [List.append_nil]; rfl⟩
  | cons r recordings ih =>
    obtain ⟨t, found, hagrees, hplan⟩ := perform_spec p r
    obtain ⟨t', found', hagrees', hplan'⟩ := ih (r.perform p)
    rw [hplan] at hagrees' hplan'
    refine ⟨t', found ++ found', hagrees.trans hagrees', ?_⟩
    rw [run, List.foldl_cons, hplan]
    rw [run] at hplan'
    rw [hplan', List.append_assoc]

end Recording

namespace Plan

/-- A plan as it is made: nothing is recorded on it, or it comes of rows and events. -/
inductive Made (p : Plan α) : Prop where
  | bare : p.issues = [] → (∀ id n, p.tree.get? id = some n → n.issues = []) → Made p
  | enriched {enricher : Enricher} {rows : List Row} {events : List (Event α)} {resolver : Option Resolver}
      {correlationId : String} {total : α} :
      enricher.physical rows events resolver correlationId total = .ok p → Made p

theorem Made.attributed (h : p.Made) : p.Attributed := by
  cases h with
  | bare hplan hnodes => exact Attributed.of_no_issues hplan hnodes
  | enriched hphysical => exact Enrichment.physical_attributed hphysical

/-- The places of the issues about a node are in ascending order. -/
theorem pairwise_placesAbout {α : Type} (issues : List (Issue α)) (id : NodeId) : (placesAbout issues id).Pairwise (· < ·) := by
  have hplaces : (issues.zipIdx.map Prod.snd).Pairwise (· < ·) := by
    rw [List.zipIdx_map_snd]
    exact List.pairwise_lt_range'
  exact hplaces.sublist (List.Sublist.map _ List.filter_sublist)

theorem mem_placesAbout {α : Type} {issues : List (Issue α)} {k : Nat} :
    k ∈ placesAbout issues id ↔ ∃ issue, issues[k]? = some issue ∧ issue.node = id := by
  simp only [placesAbout, List.mem_map, List.mem_filter, beq_iff_eq]
  constructor
  · rintro ⟨⟨issue, j⟩, ⟨hmem, hid⟩, rfl⟩
    exact ⟨issue, List.mem_zipIdx_iff_getElem?.mp hmem, hid⟩
  · rintro ⟨issue, hk, hid⟩
    exact ⟨(issue, k), ⟨List.mem_zipIdx_iff_getElem?.mpr hk, hid⟩, rfl⟩

/-- An issue about a node that is not there is on the plan alone. -/
theorem tree_addIssue_unknown {α : Type} (p : Plan α) {issue : Issue α} (h : p.tree.contains issue.node = false) :
    (p.addIssue issue).tree = p.tree := by
  refine Tree.ext_get? rfl (fun i => ?_)
  change (p.tree.modify issue.node _).get? i = p.tree.get? i
  rw [Tree.get?_modify]
  split
  · rename_i hi
    subst hi
    have hnone : p.tree.get? issue.node = none := by
      rw [Option.eq_none_iff_forall_ne_some]
      intro n hn
      rw [Tree.contains_iff.mpr (Tree.lt_size_iff.mpr ⟨n, hn⟩)] at h
      cases h
    rw [hnone]
    rfl
  · rfl

/-- What a detection finds is what the rules report at the nodes in their order, whatever has been recorded before. -/
theorem findIssues_reported {p' : Plan α} (hagrees : Tree.Agrees Node.undiagnosed p.tree p'.tree)
    (hall : p'.allNodes = p.allNodes) (thresholds : IssueThresholds) (queries : NodeId → Option QueryInfo) :
    ∃ found, List.Forall₂ (Detection.Reported thresholds queries) p.nodes found ∧
      p'.findIssues thresholds queries = found.flatten := by
  refine ⟨p.nodes.map (Detection.issuesOf thresholds queries), ?_, ?_⟩
  · rw [List.forall₂_map_right_iff, List.forall₂_same]
    exact fun n _ => Detection.reported_issuesOf thresholds queries n
  · have hnodes : p'.nodes.map Node.undiagnosed = p.nodes.map Node.undiagnosed := by
      rw [nodes, nodes, hall]
      exact Tree.nodesAt_congr hagrees p.allNodes
    have hrules : ∀ q : Plan α, q.findIssues thresholds queries =
        (q.nodes.map Node.undiagnosed).flatMap (Detection.issuesOf thresholds queries) := by
      intro q
      rw [findIssues, List.flatMap_map]
      rfl
    rw [hrules, hnodes, ← hrules, findIssues, List.flatMap_def]

end Plan

/-- Whatever is recorded on a plan, its list of issues and the lists of its nodes agree. A node refers to the places of the issues
about it, in ascending order and to no others, and so to the issues themselves in their order. A detection appends what the rules
report at each node in pre-order, and tells how many issues that is; one more issue is appended as given, and where it is about no
node of the plan, the nodes stay as they are. -/
theorem recordings_agree (p : Plan α) (hp : p.Made) (recordings : List (Recording α)) :
    let q := Recording.run p recordings
    (∀ id n, q.tree.get? id = some n →
      n.issues.Pairwise (· < ·) ∧ (∀ k, k ∈ n.issues ↔ ∃ issue, q.issues[k]? = some issue ∧ issue.node = id) ∧
        q.issuesAt n = q.issues.filter (·.node == id)) ∧
    (∀ issue, (q.addIssue issue).issues = q.issues ++ [issue] ∧
      (q.tree.contains issue.node = false → (q.addIssue issue).tree = q.tree)) ∧
    ∀ thresholds queries, ∃ found, List.Forall₂ (Detection.Reported thresholds queries) p.nodes found ∧
      (q.detect thresholds queries).1.issues = q.issues ++ found.flatten ∧
      (q.detect thresholds queries).2 = found.flatten.length := by
  intro q
  have hq : q.Attributed := Recording.run_attributed hp.attributed recordings
  refine ⟨fun id n hn => ?_, fun issue => ⟨rfl, q.tree_addIssue_unknown⟩, fun thresholds queries => ?_⟩
  · refine ⟨?_, fun k => ?_, hq.issuesAt_eq hn⟩
    · rw [hq id n hn]
      exact Plan.pairwise_placesAbout q.issues id
    · rw [hq id n hn]
      exact Plan.mem_placesAbout
  · obtain ⟨t, recorded, hagrees, hplan⟩ := Recording.run_spec p recordings
    have htree : Tree.Agrees Node.undiagnosed p.tree q.tree := by
      rw [show q = _ from hplan]
      exact hagrees
    have hall : q.allNodes = p.allNodes := by
      rw [show q = _ from hplan]
    obtain ⟨found, hreported, hfound⟩ := Plan.findIssues_reported htree hall thresholds queries
    obtain ⟨t', -, hdetected⟩ := q.detect_spec thresholds queries
    refine ⟨found, hreported, ?_, ?_⟩
    · rw [hdetected, hfound]
    · rw [Plan.detect, hfound]

/-- An issue about a node that is not there, a detection with the thresholds the wrong way round, and one more issue about the
spool that the detection has found. -/
theorem recordings_agree_spool :
    let rows : List Row := [⟨1, 0, "Spool", "", .spool, some 5, none⟩, ⟨2, 1, "Scan_Vertipaq", "", .storageScan, none, none⟩]
    let plan : Plan Rat := Plan.parsed .physical "" (Enrichment.namedTree rows none)
    let note (node : NodeId) : Issue Rat := ⟨.callbackDataId, .info, node, "", none, none⟩
    let scanned : QueryInfo := ⟨[.callbackDataId], [], false, false, none, [], []⟩
    let q := Recording.run plan [.add (note 7), .detect ⟨10, 3⟩ (fun _ => some scanned), .add (note 0)]
    plan.Made ∧
      (∀ id n, q.tree.get? id = some n → q.issuesAt n = q.issues.filter (·.node == id)) ∧
      q.issues.map (fun issue => (issue.node, issue.severity)) = [(7, .info), (0, .error), (1, .warning), (0, .info)] ∧
      (q.tree.get? 0).map Node.issues = some [1, 3] := by
  intro rows plan note scanned q
  have hmade : plan.Made := by
    refine .bare rfl (fun id n hn => ?_)
    rw [show plan.tree = Enrichment.namedTree rows none from Plan.tree_parsed _ _ _] at hn
    exact (Enrichment.namedTree_plain hn).2
  obtain ⟨hlists, -, -⟩ :=
    recordings_agree plan hmade [.add (note 7), .detect ⟨10, 3⟩ (fun _ => some scanned), .add (note 0)]
  exact ⟨hmade, fun id n hn => (hlists id n hn).2.2, by decide +kernel, by decide +kernel⟩

end DaxPlan
