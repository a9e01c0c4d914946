import DaxPlan.Proofs.Session.RoundTrip
import DaxPlan.Proofs.Timestamp.RoundTrip

/-!
# What is saved of a session

Every session can be saved. It is read again if its times are finite, whatever their digits, and refused if they are not
(`Session.reload_iff_finite`): an infinite time is written as null, and there is no time that null is read as.
-/

namespace DaxPlan

/-! ## What a field can hold -/

/-- An event whose points in time are of the calendar, and whose counts have 64 bits. -/
structure Event.Representable {α : Type} (e : Event α) : Prop where
  stamps : ∀ t ∈ [e.startTime, e.endTime], t.InCalendar
  estimates : ∀ o ∈ [e.estimatedRows, e.estimatedKbytes], ∀ n ∈ o, n < Number.twoPow 64

/-- The text of a point in time of the calendar is read. -/
theorem Timestamp.InCalendar.isSome_ofText? {t : Timestamp} (h : t.InCalendar) : (ofText? t.text).isSome = true := by
  rw [ofText?_text h]
  rfl

/-- Rereading settles a point in time of the calendar. -/
theorem Timestamp.InCalendar.reread_eq {t : Timestamp} (h : t.InCalendar) : t.reread = t.settled := by
  rw [reread, ofText?_text h]
  rfl

/-- An event that can be represented can be read. -/
theorem Event.Representable.readable {α : Type} {e : Event α} (h : e.Representable) : e.Readable :=
  ⟨fun t ht => (h.stamps t ht).isSome_ofText?, h.estimates⟩

namespace Session

/-- A session whose points in time are of the calendar, whose counts have 64 bits, and whose parameters have distinct names. Its
times may be any floats. -/
structure Representable {α : Type} (s : Session α) : Prop where
  start : s.startTime.InCalendar
  parameters : (s.parameters.map Prod.fst).Nodup
  events : ∀ e ∈ s.events, e.Representable

/-- A session that can be represented can be read. -/
theorem Representable.readable {α : Type} {s : Session α} (h : s.Representable) : s.Readable :=
  ⟨h.start.isSome_ofText?, h.parameters, fun e he => (h.events e he).readable⟩

/-- What a session keeps when it is saved: all but the digits of its times. -/
structure Keeps {α : Type} (s saved : Session α) : Prop where
  activityId : s.activityId = saved.activityId
  requestId : s.requestId = saved.requestId
  queryText : s.queryText = saved.queryText
  parameters : s.parameters = saved.parameters
  startTime : s.startTime = saved.startTime.settled
  physicalPlanText : s.physicalPlanText = saved.physicalPlanText
  logicalPlanText : s.logicalPlanText = saved.logicalPlanText
  events : s.events.length = saved.events.length

/-- Another total and as many other events keep the rest of a session. -/
theorem keeps_with {α : Type} {s : Session α} {start : Timestamp} (hstart : start = s.startTime.settled) (total : α)
    {events : List (Event α)} (hevents : events.length = s.events.length) :
    Keeps { s with startTime := start, totalDuration := total, events := events } s :=
  ⟨rfl, rfl, rfl, rfl, hstart, rfl, rfl, hevents⟩

/-- Rereading keeps a session but for its times. -/
theorem Representable.keeps_reread {s : Session Float} (h : s.Representable) : s.reread.Keeps s :=
  keeps_with h.start.reread_eq (Json.reread s.totalDuration) (List.length_map Event.reread)

/-- A saved session is read, with its id, its texts, its parameters and as many events, if and only if all of its times are finite;
if one is not, what was saved is refused. -/
theorem reload_iff_finite (s : Session Float) (h : s.Representable) :
    ((∃ reloaded, ofText s.toText = .ok reloaded ∧ reloaded.Keeps s) ↔ ∀ x ∈ s.times, x.isFinite = true) ∧
      (ofText s.toText = .error .serialization ↔ ∃ x ∈ s.times, x.isFinite = false) := by
  have hread := ofText_toText h.readable
  have hnot : (∃ x ∈ s.times, x.isFinite = false) ↔ ¬ ∀ x ∈ s.times, x.isFinite = true := by
    simp only [not_forall, Bool.not_eq_true, exists_prop]
  by_cases hfinite : ∀ x ∈ s.times, x.isFinite = true
  · have hok : ofText s.toText = .ok s.reread := hread.trans (if_pos hfinite)
    refine ⟨⟨fun _ => hfinite, fun _ => ⟨s.reread, hok, h.keeps_reread⟩⟩, ⟨fun herror => ?_, fun hinfinite => ?_⟩⟩
    · rw [hok] at herror
      cases herror
    · exact absurd hfinite (hnot.mp hinfinite)
  · have herror : ofText s.toText = .error .serialization := hread.trans (if_neg hfinite)
    refine ⟨⟨fun ⟨reloaded, hok, _⟩ => ?_, fun hall => absurd hall hfinite⟩, ⟨fun _ => hnot.mpr hfinite, fun _ => herror⟩⟩
    rw [herror] at hok
    cases hok

/-- A session with a leap second and a name of a parameter that has to be escaped, once with a total time of many digits and once
with an infinite one in its event. -/
theorem reload_iff_finite_leap :
    let session (total duration : Float) : Session Float :=
      ((ofPhysical "a1" "EVALUATE T" "Scan" ⟨1483228799, 1500000000⟩ total).withEvents
        [Event.ofDuration none "SELECT" duration]).withParameter "@\"y\"" "1"
    let finite := session 123456789.12345679 5e-324
    let infinite := session 0.1 (1.0 / 0.0)
    finite.Representable ∧ infinite.Representable ∧
      (∃ reloaded, ofText finite.toText = .ok reloaded ∧ reloaded.Keeps finite) ∧
      ofText infinite.toText = .error .serialization := by
  intro session finite infinite
  have hepoch : Timestamp.epoch.InCalendar := ⟨by decide +kernel, by decide⟩
  have hleap : (⟨1483228799, 1500000000⟩ : Timestamp).InCalendar := ⟨by decide +kernel, by decide⟩
  have hrepresentable : ∀ total duration, (session total duration).Representable := by
    intro total duration
    refine ⟨hleap, List.nodup_singleton _, fun e he => ?_⟩
    obtain rfl := List.mem_singleton.mp he
    exact ⟨by simpa [Event.ofDuration] using hepoch, by simp [Event.ofDuration]⟩
  have hfinite := (reload_iff_finite finite (hrepresentable _ _)).1
  have hinfinite := (reload_iff_finite infinite (hrepresentable _ _)).2
  exact ⟨hrepresentable _ _, hrepresentable _ _, hfinite.mpr (by decide +kernel), hinfinite.mpr (by decide +kernel)⟩

/-- A session with an infinite total time is saved, and what is saved of it is refused. -/
theorem not_reload_infinite_total :
    let s : Session Float := ofPhysical "a1" "EVALUATE T" "Scan" .epoch (1.0 / 0.0)
    s.Representable ∧ ofText s.toText = .error .serialization := by
  intro s
  have hrepresentable : s.Representable := ⟨⟨by decide +kernel, by decide⟩, List.nodup_nil, by simp [s, ofPhysical]⟩
  have hinfinite : ¬ ∀ x ∈ s.times, x.isFinite = true := by decide +kernel
  exact ⟨hrepresentable, (ofText_toText hrepresentable.readable).trans (if_neg hinfinite)⟩

end Session

end DaxPlan
