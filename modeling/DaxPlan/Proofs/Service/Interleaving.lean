import DaxPlan.Service
import Mathlib.Data.List.Range
import Mathlib.Data.List.Induction
import Mathlib.Data.List.Nodup

/-!
# Requests that overlap

Requests begin and finish in any order, and some never finish. Each gets a number when it begins; a finished one publishes its
plan, is superseded, or fails. `Orderly` says what holds of a service and its requests at every moment: the numbers count the
requests in the order they began, and the published plan is the newest of those made so far. One step keeps it
(`Orderly.step`), and so every run does (`run_publishes_newest`).
-/

namespace DaxPlan.Service

variable {α : Type}

/-! ## Requests in flight -/

/-- A request with the number it got when it began. -/
structure Ticket (α : Type) where
  sequence : Nat
  request : Request α

/-- A finished request with what became of it. -/
structure Completion (α : Type) extends Ticket α where
  answer : Except (Error α) (Outcome α)

/-- The plan was published. -/
def Completion.Published (c : Completion α) : Prop := ∃ plan, c.answer = .ok (.published plan)

/-- What happens at a service: a request begins, or the one with a number comes to its end. -/
inductive Action (α : Type) where
  | start (request : Request α)
  | finish (sequence : Nat)

/-- The request that an action begins. -/
def Action.started? : Action α → Option (Request α)
  | start request => some request
  | finish _ => none

/-- A service with the requests that have begun and those that are finished, each in the order in which that happened. -/
structure Traffic (α : Type) where
  service : Service α
  begun : List (Ticket α)
  finished : List (Completion α)

/-- The newest of some plans: the one with the greatest number, and none if there are none. -/
def Newest (plans : List (Publication α)) : Option (Publication α) → Prop
  | none => plans = []
  | some p => p ∈ plans ∧ ∀ q ∈ plans, q.sequence ≤ p.sequence

/-- The published plan and its number are all there is to a publication. -/
theorem publication_eq (s : Service α) : s.latest.map (⟨s.latestSequence, ·⟩) = s.publication := by
  rw [latest, latestSequence]
  cases s.publication <;> rfl

namespace Traffic

/-- A new service, and no requests. -/
def initial (enricher : Enricher) : Traffic α := ⟨Service.new enricher, [], []⟩

/-- The requests that have begun and are not finished. -/
def running (t : Traffic α) : List (Ticket α) := t.begun.filter (fun k => t.finished.all (·.sequence != k.sequence))

theorem mem_running {t : Traffic α} {k : Ticket α} :
    k ∈ t.running ↔ k ∈ t.begun ∧ ∀ c ∈ t.finished, c.sequence ≠ k.sequence := by
  rw [running, List.mem_filter, List.all_eq_true]
  simp only [bne_iff_ne]

/-- Notes what became of a request. -/
def note (t : Traffic α) (k : Ticket α) (answer : Except (Error α) (Outcome α)) : Traffic α :=
  { t with finished := t.finished ++ [⟨k, answer⟩] }

variable [Quantity α]

/-- The plans made by finished requests, whether they were published or not. -/
def plans (t : Traffic α) (enricher : Enricher) : List (Publication α) :=
  t.finished.filterMap (fun c => (c.request.run enricher).toOption.map (⟨c.sequence, ·⟩))

/-- A request comes to its end. -/
def complete (t : Traffic α) (k : Ticket α) : Traffic α :=
  match t.service.finish k.sequence k.request with
  | .ok (service, outcome) => { t.note k (.ok outcome) with service }
  | .error e => t.note k (.error e)

/-- One action. Only a request that is running can finish. -/
def step (t : Traffic α) : Action α → Traffic α
  | .start request => { t with service := t.service.start.1, begun := t.begun ++ [⟨t.service.start.2, request⟩] }
  | .finish sequence => (t.running.find? (·.sequence == sequence)).elim t t.complete

/-- Some actions one after the other, at a new service. -/
def run (enricher : Enricher) (actions : List (Action α)) : Traffic α := actions.foldl step (initial enricher)

variable {t : Traffic α} {k : Ticket α} {enricher : Enricher}

theorem run_snoc (enricher : Enricher) (actions : List (Action α)) (a : Action α) :
    run enricher (actions ++ [a]) = (run enricher actions).step a := by
  rw [run, List.foldl_append]
  rfl

/-- A finished request has failed, is superseded, or has published its plan. -/
theorem complete_cases (t : Traffic α) (k : Ticket α) :
    (∃ e, k.request.run t.service.enricher = .error e ∧ t.complete k = t.note k (.error e)) ∨
    (∃ plan, k.request.run t.service.enricher = .ok plan ∧ k.sequence < t.service.latestSequence ∧
      t.complete k = t.note k (.ok .superseded)) ∨
    (∃ plan, k.request.run t.service.enricher = .ok plan ∧ t.service.latestSequence ≤ k.sequence ∧
      t.complete k =
        { t.note k (.ok (.published plan)) with
          service := { t.service with publication := some ⟨k.sequence, plan⟩ } }) := by
  unfold complete finish
  cases hrun : k.request.run t.service.enricher with
  | error e => exact Or.inl ⟨e, rfl, rfl⟩
  | ok plan =>
    refine Or.inr ?_
    by_cases hlt : k.sequence < t.service.latestSequence
    · refine Or.inl ⟨plan, rfl, hlt, ?_⟩
      rw [Except.map, publish, if_pos hlt]
      rfl
    · refine Or.inr ⟨plan, rfl, Nat.le_of_not_lt hlt, ?_⟩
      rw [Except.map, publish, if_neg hlt]

/-- An action begins a request, finishes one that is running, or does nothing. -/
theorem step_cases (t : Traffic α) (a : Action α) :
    (∃ request, a = .start request ∧
      t.step a =
        { t with
          service := { t.service with begun := t.service.begun + 1 }
          begun := t.begun ++ [⟨t.service.begun + 1, request⟩] }) ∨
    (a.started? = none ∧ ((∃ k ∈ t.running, t.step a = t.complete k) ∨ t.step a = t)) := by
  cases a with
  | start request => exact Or.inl ⟨request, rfl, rfl⟩
  | finish sequence =>
    refine Or.inr ⟨rfl, ?_⟩
    rw [step]
    cases hfind : t.running.find? (·.sequence == sequence) with
    | none => exact Or.inr rfl
    | some k => exact Or.inl ⟨k, List.mem_of_find?_eq_some hfind, rfl⟩

/-- The number of a running request finishes that request. -/
theorem step_finish (hnumbers : (t.begun.map Ticket.sequence).Nodup) (hk : k ∈ t.running) :
    t.step (.finish k.sequence) = t.complete k := by
  have hfind : t.running.find? (·.sequence == k.sequence) = some k := by
    have hnodup : (t.running.map Ticket.sequence).Nodup := hnumbers.sublist (List.filter_sublist.map _)
    cases hfound : t.running.find? (·.sequence == k.sequence) with
    | none => exact absurd (beq_self_eq_true _) (List.find?_eq_none.mp hfound k hk)
    | some j =>
      have hj := List.mem_of_find?_eq_some hfound
      have hsame : j.sequence = k.sequence := by simpa using List.find?_some hfound
      rw [List.inj_on_of_nodup_map hnodup hj hk hsame]
  rw [step, hfind]
  rfl

end Traffic

/-! ## What holds at every moment -/

variable [Quantity α]

/-- A request was answered as those finished before it demand: an error if it fails; otherwise it is superseded exactly if a
request with a greater number was published before, and its plan is published if not. -/
def Answered (enricher : Enricher) (before : List (Completion α)) (c : Completion α) : Prop :=
  (∀ e, c.request.run enricher = .error e → c.answer = .error e) ∧
  ∀ plan, c.request.run enricher = .ok plan →
    (c.answer = .ok .superseded ↔ ∃ b ∈ before, b.Published ∧ c.sequence < b.sequence) ∧
    (c.answer ≠ .ok .superseded → c.answer = .ok (.published plan))

namespace Answered

variable {enricher : Enricher} {before : List (Completion α)} {k : Ticket α} {plan : Plan α}

theorem failed {e : Error α} (hrun : k.request.run enricher = .error e) : Answered enricher before ⟨k, .error e⟩ := by
  constructor
  · intro e' he'
    rw [hrun, Except.error.injEq] at he'
    rw [he']
  · intro plan hplan
    rw [hrun] at hplan
    cases hplan

theorem superseded (hrun : k.request.run enricher = .ok plan)
    (hnewer : ∃ b ∈ before, b.Published ∧ k.sequence < b.sequence) : Answered enricher before ⟨k, .ok .superseded⟩ := by
  constructor
  · intro e he
    rw [hrun] at he
    cases he
  · intro _ _
    exact ⟨iff_of_true rfl hnewer, fun hne => absurd rfl hne⟩

theorem published (hrun : k.request.run enricher = .ok plan)
    (hnone : ¬∃ b ∈ before, b.Published ∧ k.sequence < b.sequence) :
    Answered enricher before ⟨k, .ok (.published plan)⟩ := by
  constructor
  · intro e he
    rw [hrun] at he
    cases he
  · intro plan' hplan'
    rw [hrun, Except.ok.injEq] at hplan'
    exact ⟨iff_of_false nofun hnone, fun _ => by rw [hplan']⟩

end Answered

/-- What holds of a service and its requests at every moment. -/
structure Orderly (enricher : Enricher) (t : Traffic α) : Prop where
  enricher_eq : t.service.enricher = enricher
  begun_eq : t.service.begun = t.begun.length
  /-- The requests are counted as they begin. -/
  numbers : t.begun.map Ticket.sequence = List.range' 1 t.begun.length
  once : (t.finished.map (·.sequence)).Nodup
  known : ∀ c ∈ t.finished, c.toTicket ∈ t.begun
  newest : Newest (t.plans enricher) t.service.publication
  published : ∀ p, t.service.publication = some p → ∃ b ∈ t.finished, b.Published ∧ b.sequence = p.sequence
  answered : ∀ (i : Nat) c, t.finished[i]? = some c → Answered enricher (t.finished.take i) c

namespace Orderly

variable {enricher : Enricher} {t : Traffic α} {k : Ticket α} {c : Completion α}

theorem initial (enricher : Enricher) : Orderly enricher (Traffic.initial enricher : Traffic α) where
  enricher_eq := rfl
  begun_eq := rfl
  numbers := rfl
  once := List.nodup_nil
  known := nofun
  newest := rfl
  published := nofun
  answered := nofun

theorem nodup_numbers (h : Orderly enricher t) : (t.begun.map Ticket.sequence).Nodup := by
  rw [h.numbers]
  exact List.nodup_range'

/-- No plan is newer than the published one. -/
theorem plans_le (h : Orderly enricher t) : ∀ q ∈ t.plans enricher, q.sequence ≤ t.service.latestSequence := by
  intro q hq
  have hnewest := h.newest
  unfold latestSequence
  cases hp : t.service.publication with
  | none =>
    rw [hp] at hnewest
    rw [hnewest] at hq
    cases hq
  | some p =>
    rw [hp] at hnewest
    exact hnewest.2 q hq

/-- An older plan leaves the published one the newest. -/
theorem newest_append_of_lt (h : Orderly enricher t) {q : Publication α} (hlt : q.sequence < t.service.latestSequence) :
    Newest (t.plans enricher ++ [q]) t.service.publication := by
  have hnewest := h.newest
  rw [latestSequence] at hlt
  cases hp : t.service.publication with
  | none =>
    rw [hp] at hlt
    exact absurd hlt (Nat.not_lt_zero _)
  | some p =>
    rw [hp] at hnewest hlt
    refine ⟨List.mem_append_left _ hnewest.1, fun r hr => ?_⟩
    rcases List.mem_append.mp hr with hr | hr
    · exact hnewest.2 r hr
    · rw [List.mem_singleton.mp hr]
      exact Nat.le_of_lt hlt

/-- Among the finished requests those that published a plan made it, and are no newer than the published one. -/
theorem le_latestSequence (h : Orderly enricher t) {b : Completion α} (hb : b ∈ t.finished) (hpublished : b.Published) :
    b.sequence ≤ t.service.latestSequence := by
  obtain ⟨q, hq⟩ := hpublished
  obtain ⟨i, hi⟩ := List.mem_iff_getElem?.mp hb
  obtain ⟨hfails, -⟩ := h.answered i b hi
  have hmade : ∃ plan, b.request.run enricher = .ok plan := by
    cases hrun : b.request.run enricher with
    | error e =>
      have herror := hfails e hrun
      rw [hq] at herror
      cases herror
    | ok plan => exact ⟨plan, rfl⟩
  obtain ⟨plan, hplan⟩ := hmade
  refine h.plans_le ⟨b.sequence, plan⟩ (List.mem_filterMap.mpr ⟨b, hb, ?_⟩)
  rw [hplan]
  rfl

/-- A newer plan than that of a request is published exactly if a request with a greater number was published before. -/
theorem lt_latestSequence_iff (h : Orderly enricher t) {sequence : Nat} :
    sequence < t.service.latestSequence ↔ ∃ b ∈ t.finished, b.Published ∧ sequence < b.sequence := by
  constructor
  · intro hlt
    cases hp : t.service.publication with
    | none =>
      rw [latestSequence, hp] at hlt
      exact absurd hlt (Nat.not_lt_zero _)
    | some p =>
      rw [latestSequence, hp] at hlt
      obtain ⟨b, hb, hpublished, hsequence⟩ := h.published p hp
      exact ⟨b, hb, hpublished, hsequence ▸ hlt⟩
  · rintro ⟨b, hb, hpublished, hlt⟩
    exact Nat.lt_of_lt_of_le hlt (h.le_latestSequence hb hpublished)

/-- A request begins. -/
theorem start (h : Orderly enricher t) (request : Request α) : Orderly enricher (t.step (.start request)) where
  enricher_eq := h.enricher_eq
  begun_eq := by
    change t.service.begun + 1 = (t.begun ++ [_]).length
    rw [List.length_append, h.begun_eq, List.length_singleton]
  numbers := by
    change (t.begun ++ [_]).map Ticket.sequence = List.range' 1 (t.begun ++ [_]).length
    rw [List.map_append, h.numbers, List.length_append, List.length_singleton, List.range'_1_concat]
    change _ ++ [t.service.begun + 1] = _
    rw [h.begun_eq, Nat.add_comm]
  once := h.once
  known := fun c hc => List.mem_append_left _ (h.known c hc)
  newest := h.newest
  published := h.published
  answered := h.answered

/-- A running request is finished: what is published then, and what it is answered, is left to show. -/
theorem finish (h : Orderly enricher t) (hk : k ∈ t.running) {publication : Option (Publication α)}
    {answer : Except (Error α) (Outcome α)}
    (hnewest : Newest ((t.note k answer).plans enricher) publication)
    (hpublished : ∀ p, publication = some p → ∃ b ∈ (t.note k answer).finished, b.Published ∧ b.sequence = p.sequence)
    (hanswered : Answered enricher t.finished ⟨k, answer⟩) :
    Orderly enricher { t.note k answer with service := { t.service with publication } } := by
  obtain ⟨hbegun, hfresh⟩ := Traffic.mem_running.mp hk
  refine ⟨h.enricher_eq, h.begun_eq, h.numbers, ?once, ?known, hnewest, hpublished, ?answered⟩
  case once =>
    change ((t.note k answer).finished.map (·.sequence)).Nodup
    rw [Traffic.note]
    rw [List.map_append, List.map_singleton, List.nodup_append]
    refine ⟨h.once, List.pairwise_singleton _ _, ?_⟩
    intro a ha b hb hab
    obtain ⟨c, hc, rfl⟩ := List.mem_map.mp ha
    exact hfresh c hc (hab.trans (List.mem_singleton.mp hb))
  case known =>
    intro c hc
    rcases List.mem_append.mp hc with hc | hc
    · exact h.known c hc
    · rw [List.mem_singleton.mp hc]
      exact hbegun
  case answered =>
    intro i c hc
    change (t.note k answer).finished[i]? = some c at hc
    change Answered enricher ((t.note k answer).finished.take i) c
    rw [Traffic.note] at hc ⊢
    dsimp only at hc ⊢
    rcases Nat.lt_or_ge i t.finished.length with hi | hi
    · rw [List.getElem?_append_left hi] at hc
      rw [List.take_append_of_le_length (Nat.le_of_lt hi)]
      exact h.answered i c hc
    · -- the request just finished is the last
      have hlast : i = t.finished.length := by
        have hlt := (List.getElem?_eq_some_iff.mp hc).1
        rw [List.length_append, List.length_singleton] at hlt
        omega
      rw [hlast, List.getElem?_concat_length, Option.some.injEq] at hc
      rw [← hc, hlast, List.take_left]
      exact hanswered

/-- A request that made no plan adds none. -/
theorem plans_error {e : Error α} (hrun : k.request.run enricher = .error e) (answer : Except (Error α) (Outcome α)) :
    (t.note k answer).plans enricher = t.plans enricher := by
  rw [Traffic.plans, Traffic.note, List.filterMap_append, List.filterMap_cons_none (by rw [hrun]; rfl), List.filterMap_nil,
    List.append_nil]
  rfl

/-- A request that made a plan adds it. -/
theorem plans_ok {plan : Plan α} (hrun : k.request.run enricher = .ok plan) (answer : Except (Error α) (Outcome α)) :
    (t.note k answer).plans enricher = t.plans enricher ++ [⟨k.sequence, plan⟩] := by
  rw [Traffic.plans, Traffic.note, List.filterMap_append, List.filterMap_cons_some (by rw [hrun]; rfl), List.filterMap_nil]
  rfl

/-- A request comes to its end. -/
theorem complete (h : Orderly enricher t) (hk : k ∈ t.running) : Orderly enricher (t.complete k) := by
  have hold : ∀ answer : Except (Error α) (Outcome α), ∀ p, t.service.publication = some p →
      ∃ b ∈ (t.note k answer).finished, b.Published ∧ b.sequence = p.sequence := by
    intro answer p hp
    obtain ⟨b, hb, hpublished⟩ := h.published p hp
    exact ⟨b, List.mem_append_left _ hb, hpublished⟩
  -- A failed run leaves no plan, a superseded one a plan older than the newest, a published one the newest.
  rcases t.complete_cases k with ⟨e, hrun, heq⟩ | ⟨plan, hrun, hlt, heq⟩ | ⟨plan, hrun, hle, heq⟩
  · rw [h.enricher_eq] at hrun
    rw [heq]
    refine h.finish hk (?_ : Newest _ t.service.publication) (hold _) (Answered.failed hrun)
    rw [plans_error hrun]
    exact h.newest
  · rw [h.enricher_eq] at hrun
    rw [heq]
    refine h.finish hk (?_ : Newest _ t.service.publication) (hold _)
      (Answered.superseded hrun (h.lt_latestSequence_iff.mp hlt))
    rw [plans_ok hrun]
    exact h.newest_append_of_lt hlt
  · rw [h.enricher_eq] at hrun
    rw [heq]
    have hnone : ¬∃ b ∈ t.finished, b.Published ∧ k.sequence < b.sequence :=
      fun hex => Nat.not_lt_of_le hle (h.lt_latestSequence_iff.mpr hex)
    refine h.finish hk ?newest ?published (Answered.published hrun hnone)
    case newest =>
      rw [plans_ok hrun]
      refine ⟨List.mem_append_right _ List.mem_cons_self, fun q hq => ?_⟩
      rcases List.mem_append.mp hq with hq | hq
      · exact (h.plans_le q hq).trans hle
      · rw [List.mem_singleton.mp hq]
    case published =>
      intro p hp
      rw [Option.some.injEq] at hp
      exact ⟨_, List.mem_append_right _ List.mem_cons_self, ⟨plan, rfl⟩, by rw [← hp]⟩

/-- One action keeps order. -/
theorem step (h : Orderly enricher t) (a : Action α) : Orderly enricher (t.step a) := by
  rcases t.step_cases a with ⟨request, rfl, -⟩ | ⟨-, ⟨k, hk, heq⟩ | heq⟩
  · exact h.start request
  · rw [heq]
    exact h.complete hk
  · rw [heq]
    exact h

theorem run (enricher : Enricher) (actions : List (Action α)) : Orderly enricher (Traffic.run enricher actions) := by
  induction actions using List.reverseRecOn with
  | nil => exact initial enricher
  | append_singleton actions a ih =>
    rw [Traffic.run_snoc]
    exact ih.step a

end Orderly

/-! ## Runs -/

variable {enricher : Enricher} {t : Traffic α} {k : Ticket α}

/-- Of the requests that have begun none is forgotten. -/
theorem begun_run (enricher : Enricher) (actions : List (Action α)) :
    (Traffic.run enricher actions).begun.map Ticket.request = actions.filterMap Action.started? := by
  induction actions using List.reverseRecOn with
  | nil => rfl
  | append_singleton actions a ih =>
    rw [Traffic.run_snoc, List.filterMap_append, ← ih]
    rcases (Traffic.run enricher actions).step_cases a with ⟨request, rfl, heq⟩ | ⟨hnone, ⟨k, -, heq⟩ | heq⟩
    · rw [heq, List.map_append]
      rfl
    · rw [heq, List.filterMap_cons_none hnone, List.filterMap_nil, List.append_nil]
      rcases Traffic.complete_cases _ k with ⟨_, -, heq⟩ | ⟨_, -, -, heq⟩ | ⟨_, -, -, heq⟩ <;> rw [heq] <;> rfl
    · rw [heq, List.filterMap_cons_none hnone, List.filterMap_nil, List.append_nil]

/-- The number of the published plan does not go down. -/
theorem latestSequence_le_step (t : Traffic α) (a : Action α) :
    t.service.latestSequence ≤ (t.step a).service.latestSequence := by
  rcases t.step_cases a with ⟨request, -, heq⟩ | ⟨-, ⟨k, -, heq⟩ | heq⟩
  · rw [heq]
    exact Nat.le_refl _
  · rcases t.complete_cases k with ⟨_, -, hcomplete⟩ | ⟨_, -, -, hcomplete⟩ | ⟨_, -, hle, hcomplete⟩
    · rw [heq, hcomplete]
      exact Nat.le_refl _
    · rw [heq, hcomplete]
      exact Nat.le_refl _
    · rw [heq, hcomplete]
      exact hle
  · rw [heq]

/-- A running request is noted when it comes to its end. -/
theorem finished_complete (t : Traffic α) (k : Ticket α) :
    ∃ answer, (t.complete k).finished = t.finished ++ [⟨k, answer⟩] := by
  rcases t.complete_cases k with ⟨e, -, heq⟩ | ⟨_, -, -, heq⟩ | ⟨plan, -, -, heq⟩
  · exact ⟨.error e, by rw [heq]; rfl⟩
  · exact ⟨.ok .superseded, by rw [heq]; rfl⟩
  · exact ⟨.ok (.published plan), by rw [heq]; rfl⟩

/-- A request that fails leaves the service as it is. -/
theorem service_complete_error {e : Error α} (hrun : k.request.run t.service.enricher = .error e) :
    (t.complete k).service = t.service := by
  rcases t.complete_cases k with ⟨_, -, heq⟩ | ⟨plan, hplan, -⟩ | ⟨plan, hplan, -⟩
  · rw [heq]
    rfl
  · rw [hrun] at hplan
    cases hplan
  · rw [hrun] at hplan
    cases hplan

/-- However requests begin and finish at a new service, at every moment: the requests begun are numbered upwards in that order,
and each finishes once at most; the published plan with its number is the newest that any finished request made; a finished
request was superseded exactly if one with a greater number had been published before it, and otherwise its own plan was
published; the number of the published plan does not go down; and a request that fails changes nothing at the service. -/
theorem run_publishes_newest (enricher : Enricher) (actions : List (Action α)) :
    let t : Traffic α := Traffic.run enricher actions
    t.begun.map Ticket.request = actions.filterMap Action.started? ∧
    (t.begun.map Ticket.sequence).Pairwise (· < ·) ∧
    (t.finished.map (·.sequence)).Nodup ∧
    (∀ c ∈ t.finished, c.toTicket ∈ t.begun) ∧
    Newest (t.plans enricher) (t.service.latest.map (⟨t.service.latestSequence, ·⟩)) ∧
    (∀ (i : Nat) c, t.finished[i]? = some c → Answered enricher (t.finished.take i) c) ∧
    (∀ a, t.service.latestSequence ≤ (t.step a).service.latestSequence) ∧
    (∀ k ∈ t.running, ∃ answer, (t.step (.finish k.sequence)).finished = t.finished ++ [⟨k, answer⟩]) ∧
    (∀ k ∈ t.running, ∀ e, k.request.run enricher = .error e → (t.step (.finish k.sequence)).service = t.service) := by
  intro t
  have h : Orderly enricher t := Orderly.run enricher actions
  refine ⟨begun_run enricher actions, ?numbers, h.once, h.known, ?newest, h.answered, latestSequence_le_step t, ?noted, ?fails⟩
  case numbers =>
    rw [h.numbers]
    exact List.pairwise_lt_range'
  case newest =>
    rw [publication_eq]
    exact h.newest
  case noted =>
    intro k hk
    rw [Traffic.step_finish h.nodup_numbers hk]
    exact finished_complete t k
  case fails =>
    intro k hk e hrun
    rw [Traffic.step_finish h.nodup_numbers hk]
    exact service_complete_error (by rw [h.enricher_eq]; exact hrun)

/-- The request that began first is the last to finish, behind one that fails, and is superseded. -/
example :
    let t : Traffic Rat := Traffic.run {}
      [.start (.ofText "" "first" 1), .start (.ofText "" "second" 1), .start (.ofText "" "third" (-1)), .finish 2, .finish 3,
        .finish 1]
    t.service.latest.map Plan.correlationId = some "second" ∧ t.service.latestSequence = 2 := by
  decide +kernel

end DaxPlan.Service
