import DaxPlan.Proofs.Enrichment.Correlation

/-!
# The order of unrelated events

Events reach the plan through the queues of the tables alone. Two lists of events in which the tables that the plan reads have
the same queues make the same plan (`physical_same_queues`), wherever the events of one table stand among those of another, and
whatever other events there are.
-/

namespace DaxPlan.Enrichment

variable {α : Type} {nodes : List (Node α)} {events events' : List (Event α)}

/-- Nodes that find the same queues take the same events. -/
theorem correlate_same_queues
    (h : ∀ n ∈ nodes, ∀ key, nodeKey? n = some key → keyed eventKey? key events' = keyed eventKey? key events) :
    correlate nodes events' = correlate nodes events := by
  induction nodes generalizing events events' with
  | nil => rfl
  | cons n nodes ih =>
    have hrest := fun m hm => h m (List.mem_cons_of_mem n hm)
    obtain ⟨key, e, rest, hkey, heq, hhead, hother⟩ | ⟨heq, hempty⟩ := correlate_cons n nodes events
    · have hqueue := h n List.mem_cons_self key hkey
      obtain ⟨key', e', rest', hkey', heq', hhead', hother'⟩ | ⟨-, hempty'⟩ := correlate_cons n nodes events'
      · obtain rfl : key = key' := Option.some.inj (hkey.symm.trans hkey')
        rw [hhead, hhead', List.cons.injEq] at hqueue
        obtain ⟨rfl, hqueue⟩ := hqueue
        rw [heq, heq']
        refine congrArg _ (ih (fun m hm other hm' => ?_))
        by_cases hne : other = key
        · rw [hne]
          exact hqueue
        · rw [hother other hne, hother' other hne]
          exact hrest m hm other hm'
      · rw [hempty' key hkey, hhead] at hqueue
        cases hqueue
    · obtain ⟨key', e', rest', hkey', -, hhead', -⟩ | ⟨heq', -⟩ := correlate_cons n nodes events'
      · have hqueue := h n List.mem_cons_self key' hkey'
        rw [hempty key' hkey', hhead'] at hqueue
        cases hqueue
      · rw [heq, heq']
        exact ih hrest

variable [Quantity α]

/-- A plan is made of the events that its nodes take; the others do not show. -/
theorem physical_same_taken (enricher : Enricher) {rows : List Row} {resolver : Option Resolver} (correlationId : String)
    {total : α} (hvalid : validate events total = .ok ()) (hvalid' : validate events' total = .ok ())
    (h : taken rows events' resolver = taken rows events resolver) :
    enricher.physical rows events' resolver correlationId total = enricher.physical rows events resolver correlationId total := by
  rw [physical_eq enricher rows events resolver correlationId total hvalid,
    physical_eq enricher rows events' resolver correlationId total hvalid', scannedQueries, scannedQueries, timedPlan, timedPlan, h]

/-- With an invalid total it does not matter what the events are. -/
theorem physical_invalid_total (enricher : Enricher) (rows : List Row) (events : List (Event α)) (resolver : Option Resolver)
    (correlationId : String) {total : α} (h : (!Quantity.isFinite total || Quantity.lt total Quantity.zero) = true) :
    enricher.physical rows events resolver correlationId total = .error (.invalidTotal total) := by
  unfold Enricher.physical validate
  rw [if_pos h]
  rfl

/-- Two lists of valid events that have the same queue for the table of every storage engine row of the plan make the same plan:
the same nodes, the same totals and the same issues in the same order. With a valid total there is such a plan; otherwise both
fail alike. -/
theorem physical_same_queues (enricher : Enricher) (rows : List Row) (events events' : List (Event α))
    (resolver : Option Resolver) (correlationId : String) (total : α) (hevents : ∀ e ∈ events, e.flaw? = none)
    (hevents' : ∀ e ∈ events', e.flaw? = none)
    (hqueues : ∀ plan, enricher.physical rows events resolver correlationId total = .ok plan →
      ∀ n ∈ plan.nodes, n.engine.isStorage = true → ∀ name, n.objectName = some name →
        keyed eventKey? (Text.lowerString name) events' = keyed eventKey? (Text.lowerString name) events) :
    enricher.physical rows events' resolver correlationId total = enricher.physical rows events resolver correlationId total ∧
      (Quantity.isFinite total = true → Quantity.lt total Quantity.zero = false →
        ∃ plan, enricher.physical rows events resolver correlationId total = .ok plan) := by
  by_cases htotal : (!Quantity.isFinite total || Quantity.lt total Quantity.zero) = true
  · refine ⟨?_, fun hfinite hsign => ?_⟩
    · rw [physical_invalid_total enricher rows events resolver correlationId htotal,
        physical_invalid_total enricher rows events' resolver correlationId htotal]
    · rw [hfinite, hsign] at htotal
      cases htotal
  · obtain ⟨hfinite, hsign⟩ : Quantity.isFinite total = true ∧ Quantity.lt total Quantity.zero = false := by
      simpa using htotal
    have hvalid := validate_eq_ok hfinite hsign hevents
    obtain ⟨plan, hplan, henriched⟩ := physical_spec enricher rows events resolver correlationId total hvalid
    refine ⟨physical_same_taken enricher correlationId hvalid (validate_eq_ok hfinite hsign hevents') ?_,
      fun _ _ => ⟨plan, hplan⟩⟩
    calc taken rows events' resolver
      _ = correlate plan.nodes events' := (correlate_congr henriched.keys events').symm
      _ = correlate plan.nodes events := correlate_same_queues (fun n hn key hkey => ?_)
      _ = taken rows events resolver := henriched.taken_eq.symm
    rw [nodeKey?] at hkey
    split at hkey
    · next hstorage =>
      obtain ⟨name, hname, rfl⟩ := Option.map_eq_some_iff.mp hkey
      exact hqueues plan hplan n hn hstorage name hname
    · cases hkey

/-- Two rows read two tables. The events of the tables change places, and an event without a name and one of another table
come and go. -/
theorem physical_same_queues_sales :
    let row (details : String) : Row := ⟨1, 0, "Scan_Vertipaq", details, .storageScan, none, none⟩
    let rows := [row "'Sales'[A]", row "'Date'[B]"]
    let event (name : Option String) (duration : Rat) := Event.ofDuration name "" duration
    let events := [event none 9, event (some "SALES") 4, event (some "Date") 3, event (some "sales") 5, event (some "Other") 7]
    let events' := [event (some "Date") 3, event (some "SALES") 4, event (some "sales") 5]
    (∀ e ∈ events, e.flaw? = none) ∧ (∀ e ∈ events', e.flaw? = none) ∧
      ∃ plan, ({} : Enricher).physical rows events none "" 10 = .ok plan ∧
        ({} : Enricher).physical rows events' none "" 10 = .ok plan ∧
        plan.nodes.map Node.objectName = [none, some "Sales", some "Date"] ∧
        plan.nodes.map Node.duration = [none, some 4, some 3] := by
  intro row rows event events events'
  have hevents : ∀ e ∈ events, e.flaw? = none := by decide +kernel
  have hevents' : ∀ e ∈ events', e.flaw? = none := by decide +kernel
  have hvalues : (({} : Enricher).physical rows events none "" 10).toOption.map
      (fun p => (p.nodes.map Node.objectName, p.nodes.map Node.duration)) =
        some ([none, some "Sales", some "Date"], [none, some 4, some 3]) := by decide +kernel
  have hqueues : ∀ plan, ({} : Enricher).physical rows events none "" 10 = .ok plan →
      ∀ n ∈ plan.nodes, n.engine.isStorage = true → ∀ name, n.objectName = some name →
        keyed eventKey? (Text.lowerString name) events' = keyed eventKey? (Text.lowerString name) events := by
    intro plan hplan n hn _ name hname
    rw [hplan] at hvalues
    obtain ⟨hnames, -⟩ := Prod.mk.inj (Option.some.inj hvalues)
    have hmem : some name ∈ plan.nodes.map Node.objectName := List.mem_map.mpr ⟨n, hn, hname⟩
    rw [hnames] at hmem
    have hcases : name = "Sales" ∨ name = "Date" := by simpa using hmem
    rcases hcases with rfl | rfl <;> rfl
  obtain ⟨hsame, hexists⟩ := physical_same_queues {} rows events events' none "" 10 hevents hevents' hqueues
  obtain ⟨plan, hplan⟩ := hexists rfl (by decide +kernel)
  rw [hplan] at hvalues hsame
  obtain ⟨hnames, hdurations⟩ := Prod.mk.inj (Option.some.inj hvalues)
  exact ⟨hevents, hevents', plan, hplan, hsame, hnames, hdurations⟩

end DaxPlan.Enrichment
