import DaxPlan.Proofs.Layout.Preservation
import DaxPlan.Proofs.Strict.CrossReference
import DaxPlan.Proofs.Strict.Enrichment
import DaxPlan.Proofs.Strict.Operations
import DaxPlan.Service

/-!
# All or nothing

Plans are made of texts, matched with one another, searched for issues, laid out and acted on, in any order (`Obtained`). On the
way no access is ever out of range (`accesses_in_range`): not for malformed indentation, not for an empty plan, not below a
folded node, and not for an id that a user made up. So a request is answered with a plan or with what is wrong with its total or
its first bad event, and never breaks down by itself.
-/

namespace DaxPlan

variable {α : Type} [Quantity α]

/-- A total that no plan can be made with. -/
def InvalidTotal (total : α) : Prop := Quantity.isFinite total = false ∨ Quantity.lt total Quantity.zero = true

namespace Event

/-- Something is wrong with an event. -/
def Has (e : Event α) : EventFlaw → Prop
  | .notFinite field => Quantity.isFinite (e.time field) = false
  | .negative field => Quantity.lt (e.time field) Quantity.zero = true
  | .endsBeforeStart => e.endTime.before e.startTime = true

/-- An event that no plan can be made with. -/
def Unusable (e : Event α) : Prop := ∃ flaw, e.Has flaw

variable {e : Event α} {field : TimeField} {flaw : EventFlaw}

theorem timeFlaw?_some (h : e.timeFlaw? field = some flaw) : e.Has flaw := by
  unfold timeFlaw? at h
  split at h
  · rename_i hfinite
    obtain rfl := Option.some.inj h
    simpa [Has] using hfinite
  · split at h
    · rename_i hsign
      obtain rfl := Option.some.inj h
      exact hsign
    · cases h

theorem timeFlaw?_none (h : e.timeFlaw? field = none) : ¬e.Has (.notFinite field) ∧ ¬e.Has (.negative field) := by
  unfold timeFlaw? at h
  split at h
  · cases h
  · rename_i hfinite
    split at h
    · cases h
    · rename_i hsign
      exact ⟨by simpa [Has] using hfinite, hsign⟩

theorem flaw?_some (h : e.flaw? = some flaw) : e.Has flaw := by
  unfold flaw? at h
  split at h
  · rename_i hfound
    obtain rfl := Option.some.inj h
    obtain ⟨field, -, hfield⟩ := List.exists_of_findSome?_eq_some hfound
    exact timeFlaw?_some hfield
  · split at h
    · rename_i hends
      obtain rfl := Option.some.inj h
      exact hends
    · cases h

theorem flaw?_none (h : e.flaw? = none) : ¬e.Unusable := by
  unfold flaw? at h
  split at h
  · cases h
  · rename_i hfields
    have hfield : ∀ field : TimeField, e.timeFlaw? field = none := by
      intro field
      exact List.findSome?_eq_none_iff.mp hfields field (by cases field <;> simp)
    split at h
    · cases h
    · rename_i hends
      rintro ⟨flaw, hflaw⟩
      cases flaw with
      | notFinite field => exact (timeFlaw?_none (hfield field)).1 hflaw
      | negative field => exact (timeFlaw?_none (hfield field)).2 hflaw
      | endsBeforeStart => exact hends hflaw

end Event

namespace Enrichment

/-- The first unusable event of a list is at a place. -/
structure FirstUnusable (events : List (Event α)) (i : Nat) (e : Event α) : Prop where
  there : events[i]? = some e
  unusable : e.Unusable
  least : ∀ j < i, ∀ e', events[j]? = some e' → ¬e'.Unusable

/-- The total is looked at first, and then the events in their order. -/
theorem validate_cases (events : List (Event α)) (total : α) :
    (InvalidTotal total ∧ validate events total = .error (.invalidTotal total)) ∨
    (¬InvalidTotal total ∧ ∃ i e flaw, FirstUnusable events i e ∧ e.Has flaw ∧
      validate events total = .error (.invalidTimingEvent i flaw)) ∨
    (¬InvalidTotal total ∧ (∀ e ∈ events, ¬e.Unusable) ∧ validate events total = .ok ()) := by
  unfold validate
  by_cases htotal : (!Quantity.isFinite total || Quantity.lt total Quantity.zero) = true
  · rw [if_pos htotal]
    refine Or.inl ⟨?_, rfl⟩
    simpa [InvalidTotal] using htotal
  · have hvalid : ¬InvalidTotal total := by simpa [InvalidTotal] using htotal
    rw [if_neg htotal]
    refine Or.inr ?_
    cases hfound : events.zipIdx.findSome? (fun e => e.1.flaw?.map (fun flaw => (e.2, flaw))) with
    | none =>
      refine Or.inr ⟨hvalid, fun e he => ?_, rfl⟩
      obtain ⟨i, hi⟩ := List.mem_iff_getElem?.mp he
      have hnone := List.findSome?_eq_none_iff.mp hfound (e, i) (List.mem_zipIdx_iff_getElem?.mpr hi)
      exact Event.flaw?_none (Option.map_eq_none_iff.mp hnone)
    | some found =>
      obtain ⟨above, ⟨e, i⟩, below, hsplit, he, habove⟩ := List.findSome?_eq_some_iff.mp hfound
      obtain ⟨flaw, hflaw, rfl⟩ := Option.map_eq_some_iff.mp he
      have hplace : events.zipIdx[above.length]? = some (e, i) := by
        rw [hsplit, List.getElem?_append_right (Nat.le_refl _), Nat.sub_self]
        rfl
      have hi : i = above.length := by
        rw [List.getElem?_zipIdx, Nat.zero_add] at hplace
        obtain ⟨_, -, hpair⟩ := Option.map_eq_some_iff.mp hplace
        exact (Prod.mk.inj hpair).2.symm
      have hthere : events[i]? = some e :=
        List.mk_mem_zipIdx_iff_getElem?.mp (hsplit ▸ List.mem_append_right above List.mem_cons_self)
      refine Or.inl ⟨hvalid, i, e, flaw, ⟨hthere, ⟨flaw, Event.flaw?_some hflaw⟩, fun j hj e' he' => ?_⟩,
        Event.flaw?_some hflaw, rfl⟩
      have hearlier : events.zipIdx[j]? = some (e', j) := by
        rw [List.getElem?_zipIdx, he', Nat.zero_add]
        rfl
      rw [hsplit, List.getElem?_append_left (hi ▸ hj)] at hearlier
      exact Event.flaw?_none (Option.map_eq_none_iff.mp (habove _ (List.mem_of_getElem? hearlier)))

/-- A physical plan is made unless the total or an event is in the way. -/
theorem physical_cases (enricher : Enricher) (rows : List Row) (events : List (Event α)) (resolver : Option Resolver)
    (correlationId : String) (total : α) :
    (InvalidTotal total ∧ enricher.physical rows events resolver correlationId total = .error (.invalidTotal total)) ∨
    (¬InvalidTotal total ∧ ∃ i e flaw, FirstUnusable events i e ∧ e.Has flaw ∧
      enricher.physical rows events resolver correlationId total = .error (.invalidTimingEvent i flaw)) ∨
    (¬InvalidTotal total ∧ (∀ e ∈ events, ¬e.Unusable) ∧
      ∃ plan, enricher.physical rows events resolver correlationId total = .ok plan) := by
  have herror : ∀ error, validate events total = .error error →
      enricher.physical rows events resolver correlationId total = .error error := by
    intro error hvalidate
    unfold Enricher.physical
    rw [hvalidate]
    rfl
  rcases validate_cases events total with ⟨htotal, h⟩ | ⟨htotal, i, e, flaw, hfirst, hflaw, h⟩ | ⟨htotal, hevents, h⟩
  · exact Or.inl ⟨htotal, herror _ h⟩
  · exact Or.inr (Or.inl ⟨htotal, i, e, flaw, hfirst, hflaw, herror _ h⟩)
  · obtain ⟨plan, hplan, -⟩ := physical_spec enricher rows events resolver correlationId total h
    exact Or.inr (Or.inr ⟨htotal, hevents, plan, hplan⟩)

theorem FirstUnusable.unique {events : List (Event α)} {i i' : Nat} {e e' : Event α} (h : FirstUnusable events i e)
    (h' : FirstUnusable events i' e') : i' = i ∧ e' = e := by
  have hi : i' = i := by
    rcases Nat.lt_trichotomy i' i with hlt | heq | hlt
    · exact absurd h'.unusable (h.least i' hlt e' h'.there)
    · exact heq
    · exact absurd h.unusable (h'.least i hlt e h.there)
  subst hi
  exact ⟨rfl, Option.some.inj (h'.there.symm.trans h.there)⟩

end Enrichment

namespace Strict

open Layout Enrichment

/-- The plans that come of texts, and of what can be done with plans. -/
inductive Obtained : Plan α → Prop where
  | physical {enricher : Enricher} {rows : List Row} {events : List (Event α)} {resolver : Option Resolver}
      {correlationId : String} {total : α} {p : Plan α} :
      enricher.physical rows events resolver correlationId total = .ok p → Obtained p
  | logical {rows : List Row} {resolver : Option Resolver} {correlationId : String} {p : Plan α} :
      Enricher.logical rows resolver correlationId = .ok p → Obtained p
  | crossReferenced {logical physical : Plan α} :
      Obtained logical → Obtained physical → Obtained (logical.crossReference physical).1
  | detected {p : Plan α} (thresholds : IssueThresholds) (queries : NodeId → Option QueryInfo) :
      Obtained p → Obtained (p.detect thresholds queries).1
  | recorded {p : Plan α} (issue : Issue α) : Obtained p → Obtained (p.addIssue issue)
  | laidOut {p : Plan α} (config : LayoutConfig α) : Obtained p → Obtained (Controller.new p config).1.plan
  | operated {c : Controller α} (op : Operation) : Obtained c.plan → Obtained (op.perform c).plan

/-- Whatever comes of texts and operations lists the nodes of its tree. -/
theorem Obtained.walked {p : Plan α} (h : Obtained p) : p.Walked := by
  induction h with
  | physical h => exact (physical_enriched h).walked
  | logical h =>
    rename_i rows resolver correlationId p
    obtain ⟨plan, hplan, hwalked, -, -⟩ := logical_spec (α := α) rows resolver correlationId
    rw [h, Except.ok.injEq] at hplan
    exact hplan ▸ hwalked
  | crossReferenced _ _ hlogical _ =>
    exact hlogical.of_agrees ((Plan.crossReference_agrees _ _).view Node.links (fun _ => rfl)) rfl
  | detected thresholds queries _ hp =>
    rename_i p _
    obtain ⟨t, hagrees, heq⟩ := p.detect_spec thresholds queries
    rw [heq]
    exact hp.of_agrees (hagrees.view Node.links (fun _ => rfl)) rfl
  | recorded issue _ hp =>
    rename_i p _
    exact hp.of_agrees ((p.addIssue_agrees issue).view Node.links (fun _ => rfl)) rfl
  | laidOut config _ hp => exact (Kept.new config hp.spanning).walked hp
  | operated op _ hp => exact (Kept.perform op hp.spanning).walked hp

/-! ## Requests -/

/-- Makes the plan of a request in a task of its own. An access out of range is the end of the task. -/
def run (r : DaxPlan.Request α) (enricher : Enricher) : Except (Error α) (Plan α) :=
  match rowsOfText enricher.parser r.planText with
  | none => .error .taskFailed
  | some rows =>
    match validate r.events r.totalDuration with
    | .error error => .error error
    | .ok () =>
      if r.breaksDown rows then .error .taskFailed
      else (physical enricher rows r.events r.resolver r.correlationId r.totalDuration).getD (.error .taskFailed)

def finish (s : Service α) (sequence : Nat) (r : DaxPlan.Request α) : Except (Error α) (Service α × Outcome α) :=
  (run r s.enricher).map (s.publish sequence)

theorem run_eq (r : DaxPlan.Request α) (enricher : Enricher) : run r enricher = r.run enricher := by
  unfold run DaxPlan.Request.run
  rw [rowsOfText_eq]
  dsimp only
  rw [physical_eq, Option.getD_some]
  cases hvalid : validate r.events r.totalDuration with
  | error error => rfl
  | ok _ =>
    obtain ⟨plan, hplan, -⟩ := physical_spec enricher (Row.ofText enricher.parser r.planText) r.events r.resolver r.correlationId
      r.totalDuration hvalid
    rw [hplan]
    dsimp only
    cases r.breaksDown (Row.ofText enricher.parser r.planText) <;> rfl

/-- A task fails only if the resolver gives up in it. -/
theorem breaksDown_of_run {r : DaxPlan.Request α} {enricher : Enricher} (h : r.run enricher = .error .taskFailed) :
    r.breaksDown (Row.ofText enricher.parser r.planText) = true := by
  by_contra hresolver
  rw [← run_eq, run, rowsOfText_eq] at h
  dsimp only at h
  rcases validate_cases r.events r.totalDuration with ⟨-, hvalid⟩ | ⟨-, i, e, flaw, -, -, hvalid⟩ | ⟨-, -, hvalid⟩
  · rw [hvalid] at h
    cases h
  · rw [hvalid] at h
    cases h
  · obtain ⟨plan, hplan, -⟩ := physical_spec enricher (Row.ofText enricher.parser r.planText) r.events r.resolver
      r.correlationId r.totalDuration hvalid
    rw [hvalid] at h
    dsimp only at h
    rw [if_neg hresolver, physical_eq, hplan] at h
    cases h

/-- Texts are read, plans are made of them, matched, searched for issues, laid out and acted on without an access out of range:
each of these does strictly what it does, on every text with any events and any total, and on every plan that comes of them. A
task of the service fails only if the resolver does. A physical plan is refused just for a total that is not finite or negative,
or else for an unusable event; the total is blamed first, and of several events the first. -/
theorem accesses_in_range (enricher : Enricher) :
    (∀ config text, ofText config text = some (Tree.ofText config text : Tree α)) ∧
    (∀ text events resolver correlationId (total : α),
      let answer := enricher.physicalText text events resolver correlationId total
      physicalText enricher text events resolver correlationId total = some answer ∧
      ((∃ error, answer = .error error) ↔ InvalidTotal total ∨ ∃ e ∈ events, e.Unusable) ∧
      (InvalidTotal total → answer = .error (.invalidTotal total)) ∧
      (¬InvalidTotal total → ∀ i e, FirstUnusable events i e →
        ∃ flaw, e.Has flaw ∧ answer = .error (.invalidTimingEvent i flaw))) ∧
    (∀ text resolver correlationId, ∃ p : Plan α, logicalText enricher text resolver correlationId = some p ∧
      enricher.logicalText text resolver correlationId = .ok p) ∧
    (∀ p : Plan α, Obtained p →
      (∀ other, Obtained other → crossReference p other = some (p.crossReference other)) ∧
      (∀ thresholds queries, detect thresholds queries p = some (p.detect thresholds queries)) ∧
      (∀ config, new p config = some (Controller.new p config)) ∧
      (∀ engine a, apply ⟨p, engine⟩ a = some (Controller.apply ⟨p, engine⟩ a)) ∧
      ∀ c, replacePlan c p = some (c.replacePlan p)) ∧
    ∀ (s : Service α) sequence r, finish s sequence r = s.finish sequence r ∧
      (r.breaksDown (Row.ofText s.enricher.parser r.planText) = false → s.finish sequence r ≠ .error .taskFailed) := by
  refine ⟨ofText_eq, fun text events resolver correlationId total => ?_, logicalText_eq enricher, fun p hp => ?_,
    fun s sequence r => ?_⟩
  · intro answer
    refine ⟨physicalText_eq enricher text events resolver correlationId total, ?_⟩
    rcases physical_cases enricher (Row.ofText enricher.parser text) events resolver correlationId total with
      ⟨htotal, h⟩ | ⟨htotal, i, e, flaw, hfirst, hflaw, h⟩ | ⟨htotal, hevents, plan, h⟩
    · exact ⟨⟨fun _ => Or.inl htotal, fun _ => ⟨_, h⟩⟩, fun _ => h, fun hvalid => absurd htotal hvalid⟩
    · refine ⟨⟨fun _ => Or.inr ⟨e, List.mem_of_getElem? hfirst.there, hfirst.unusable⟩, fun _ => ⟨_, h⟩⟩,
        fun hinvalid => absurd hinvalid htotal, fun _ i' e' hfirst' => ?_⟩
      obtain ⟨rfl, rfl⟩ := hfirst.unique hfirst'
      exact ⟨flaw, hflaw, h⟩
    · refine ⟨⟨fun herror => ?_, fun hinvalid => ?_⟩, fun hinvalid => absurd hinvalid htotal, fun _ i e hfirst => ?_⟩
      · obtain ⟨error, herror⟩ := herror
        cases h.symm.trans herror
      · rcases hinvalid with hinvalid | ⟨e, he, hunusable⟩
        · exact absurd hinvalid htotal
        · exact absurd hunusable (hevents e he)
      · exact absurd hfirst.unusable (hevents e (List.mem_of_getElem? hfirst.there))
  · have hwalked := hp.walked
    exact ⟨fun _ hother => crossReference_eq hwalked hother.walked, fun thresholds queries => detect_eq thresholds queries hwalked,
      new_eq hwalked.spanning, fun engine a => apply_eq (c := ⟨p, engine⟩) hwalked.spanning a,
      fun c => replacePlan_eq c hwalked.spanning⟩
  · have hfinish : finish s sequence r = s.finish sequence r := by rw [finish, Service.finish, run_eq]
    refine ⟨hfinish, fun hresolver hfailed => ?_⟩
    cases hrun : r.run s.enricher with
    | error error =>
      rw [Service.finish, hrun] at hfailed
      cases hfailed
      rw [breaksDown_of_run hrun] at hresolver
      cases hresolver
    | ok plan =>
      rw [Service.finish, hrun] at hfailed
      cases hfailed

/-- Rows that are indented at will, a total and an event without a number, and a folded plan. -/
theorem accesses_in_range_malformed :
    let text := "\t\tA: [x\n  Scan_Vertipaq: 'Sales'[Q]\nC"
    let fine : Event Float := Event.ofDuration none "" 1
    let bad : Event Float := Event.ofDuration (some "Sales") "" (0 / 0)
    let events := [fine, bad, bad]
    let request : DaxPlan.Request Float := (Request.ofText text "" 5).withEvents [fine]
    InvalidTotal (1 / 0 : Float) ∧ ¬InvalidTotal (5 : Float) ∧ FirstUnusable events 1 bad ∧
    ({} : Enricher).physicalText text events none "" (1 / 0) = .error (.invalidTotal (1 / 0)) ∧
    (∃ flaw, bad.Has flaw ∧ ({} : Enricher).physicalText text events none "" 5 = .error (.invalidTimingEvent 1 flaw)) ∧
    (∃ p : Plan Float, Obtained p ∧ ({} : Enricher).logicalText text none "" = .ok p ∧
      crossReference p p = some (p.crossReference p) ∧
      new p LayoutConfig.standard = some (Controller.new p LayoutConfig.standard) ∧
      apply ⟨p, Engine.new LayoutConfig.standard⟩ .collapseAll =
        some (Controller.apply ⟨p, Engine.new LayoutConfig.standard⟩ .collapseAll)) ∧
    (Service.new {}).finish 1 request ≠ .error .taskFailed := by
  intro text fine bad events request
  have hinvalid : InvalidTotal (1 / 0 : Float) := Or.inl (by decide +kernel)
  have hvalid : ¬InvalidTotal (5 : Float) := by
    unfold InvalidTotal
    decide +kernel
  have hfirst : FirstUnusable events 1 bad := by
    refine ⟨rfl, ⟨.notFinite .duration, by unfold Event.Has; decide +kernel⟩, fun j hj e he => ?_⟩
    obtain rfl : j = 0 := by omega
    obtain rfl := Option.some.inj he
    exact Event.flaw?_none (by decide +kernel)
  obtain ⟨-, hphysical, hlogical, hplans, hservice⟩ := accesses_in_range (α := Float) {}
  obtain ⟨-, -, htotal, hevents⟩ := hphysical text events none "" (1 / 0)
  obtain ⟨-, -, -, hevents⟩ := hphysical text events none "" 5
  obtain ⟨p, -, hp⟩ := hlogical text none ""
  have hobtained : Obtained p := .logical hp
  obtain ⟨hcross, -, hnew, happly, -⟩ := hplans p hobtained
  exact ⟨hinvalid, hvalid, hfirst, htotal hinvalid, hevents hvalid 1 bad hfirst,
    ⟨p, hobtained, hp, hcross p hobtained, hnew _, happly _ _⟩, (hservice _ 1 request).2 rfl⟩

end Strict

end DaxPlan
