import DaxPlan.Proofs.Json.RoundTrip
import DaxPlan.Session.Json

/-!
# Sessions are read back

The fields of a record are read from what is written of them: an absent one from null, one with a value of its own from that value,
and the parameters in the order in which they stand, as each name stands there once. A time that is no finite number is written as
null and not read (`Session.ofJson?_map_toJson`). With the text of the record it comes to what is saved of a session, however its
parameters were put in (`Session.reload_withParameters`).
-/

namespace DaxPlan

/-! ## Fields -/

namespace Json

/-- A finite quantity is read as what its number is changed to; any other one is not read. -/
theorem quantity?_map_ofQuantity {α β : Type} [Quantity α] [Quantity β] (f : α → β) (x : α) :
    ((ofQuantity x).map f).quantity? = if Quantity.isFinite x then some (f x) else none := by
  rw [ofQuantity]
  split <;> rfl

/-- An object that gives the fields of a record is that record. -/
theorem record?_object {α : Type} {names : List String} {fields : List (String × Json α)} (hnames : fields.map Prod.fst = names)
    (h : names.Nodup) : (Json.object fields).record? names = some ⟨fields⟩ := by
  have hall : fields.filter (fun f => names.contains f.1) = fields := by
    refine List.filter_eq_self.mpr (fun f hf => ?_)
    rw [← hnames]
    exact List.contains_iff_mem.mpr (List.mem_map_of_mem hf)
  rw [record?, hall, if_pos (hnames ▸ h)]

/-- Changing numbers changes those of what may be there. -/
theorem map_ofOption {α β γ : Type} (f : α → β) (g : γ → Json α) (o : Option γ) :
    (ofOption g o).map f = ofOption (fun x => (g x).map f) o := by
  cases o <;> rfl

/-- What may be there is read back, if it is not written as `null`. -/
theorem optional?_ofOption {α β : Type} {f : β → Json α} {g : Json α → Option β} {o : Option β}
    (h : ∀ x ∈ o, f x ≠ .null ∧ g (f x) = some x) : optional? g (ofOption f o) = some o := by
  cases o with
  | none => rfl
  | some x =>
    obtain ⟨hnull, hread⟩ := h x rfl
    simp [ofOption, optional?, hread]

/-- A text that may be there is read back. -/
theorem optional?_text {α β : Type} (f : α → β) (o : Option String) :
    optional? text? ((ofOption .text o : Json α).map f) = some o := by
  rw [map_ofOption]
  exact optional?_ofOption (fun _ _ => ⟨nofun, rfl⟩)

/-- A count that may be there is read back. -/
theorem optional?_count {α β : Type} (f : α → β) {o : Option Nat} (h : ∀ n ∈ o, n < Number.twoPow 64) :
    optional? count? ((ofOption .ofNat o : Json α).map f) = some o := by
  rw [map_ofOption]
  refine optional?_ofOption (fun n hn => ⟨nofun, ?_⟩)
  simp [ofNat, map, count?, h n hn]

end Json

/-- Subclasses are read back by their names. -/
theorem EventSubclass.ofName?_name (s : EventSubclass) : ofName? s.name = some s := by
  cases s <;> decide

/-- The point in time that the text of one is read as. -/
def Timestamp.reread (t : Timestamp) : Timestamp := (ofText? t.text).getD t

/-- A point in time is read as its text is. -/
theorem Timestamp.ofJson?_text {α : Type} {t : Timestamp} (h : (ofText? t.text).isSome = true) :
    ofJson? (.text t.text : Json α) = some t.reread := by
  obtain ⟨t', ht'⟩ := Option.isSome_iff_exists.mp h
  simp [ofJson?, Json.text?, reread, ht']

/-! ## Records -/

/-- The times of an event. -/
def Event.times {α : Type} (e : Event α) : List α := [e.duration, e.cpuTime, e.netParallelDuration]

/-- An event whose points in time have a text that is read, and whose counts have 64 bits. -/
structure Event.Readable {α : Type} (e : Event α) : Prop where
  stamps : ∀ t ∈ [e.startTime, e.endTime], (Timestamp.ofText? t.text).isSome = true
  estimates : ∀ o ∈ [e.estimatedRows, e.estimatedKbytes], ∀ n ∈ o, n < Number.twoPow 64

/-- An event with its times and points in time as their texts are read. -/
def Event.reread (e : Event Float) : Event Float :=
  { e with
    duration := Json.reread e.duration
    cpuTime := Json.reread e.cpuTime
    netParallelDuration := Json.reread e.netParallelDuration
    startTime := e.startTime.reread
    endTime := e.endTime.reread }

/-- An event is read, with its times reread, if these are finite; else it is not read. -/
theorem Event.ofJson?_map_toJson {e : Event Float} (h : e.Readable) :
    ofJson? (e.toJson.map Json.reread) = if ∀ x ∈ e.times, x.isFinite = true then some e.reread else none := by
  have hquantity := fun x => Json.quantity?_map_ofQuantity Json.reread x
  have hsubclass : EventSubclass.ofJson? (.text e.subclass.name : Json Float) = some e.subclass := e.subclass.ofName?_name
  have hstart := Timestamp.ofJson?_text (α := Float) (h.stamps e.startTime (by simp))
  have hend := Timestamp.ofJson?_text (α := Float) (h.stamps e.endTime (by simp))
  have hrows := Json.optional?_count Json.reread (h.estimates e.estimatedRows (by simp))
  have hkbytes := Json.optional?_count Json.reread (h.estimates e.estimatedKbytes (by simp))
  have hfinite : ∀ x : Float, Quantity.isFinite x = x.isFinite := fun _ => rfl
  rw [toJson, Json.map_object, ofJson?, Json.record?_object (by rfl) (by decide)]
  -- the binds are opened first, as simp would go through all that follows each of them twice
  simp only [List.map_cons, List.map_nil, Option.bind_eq_bind, Option.bind]
  simp [Json.map, Json.Record.required?, Json.Record.orElse?, Json.Record.get?, Json.optional?_text, Json.text?, Json.bool?,
    hquantity, hsubclass, hstart, hend, hrows, hkbytes, hfinite, times, Option.bind]
  by_cases hduration : e.duration.isFinite = true <;> by_cases hcpu : e.cpuTime.isFinite = true <;>
    by_cases hnet : e.netParallelDuration.isFinite = true <;> simp [hduration, hcpu, hnet, reread]

/-- Events are read if the times of all of them are finite; else none is read. -/
theorem Event.listOfJson?_map_toJson {events : List (Event Float)} (h : ∀ e ∈ events, e.Readable) :
    listOfJson? (Json.map Json.reread (.array (events.map toJson))) =
      if ∀ e ∈ events, ∀ x ∈ e.times, x.isFinite = true then some (events.map reread) else none := by
  rw [Json.map_array, List.map_map]
  change (events.map (Json.map Json.reread ∘ toJson)).mapM ofJson? = _
  induction events with
  | nil => rfl
  | cons e events ih =>
    have hrest := ih (fun e' he' => h e' (List.mem_cons_of_mem e he'))
    rw [List.map_cons, List.mapM_cons, hrest, Function.comp_apply, ofJson?_map_toJson (h e (by simp))]
    by_cases hfirst : ∀ x ∈ e.times, x.isFinite = true
    · by_cases hothers : ∀ e ∈ events, ∀ x ∈ e.times, x.isFinite = true
      · rw [if_pos hfirst, if_pos hothers, if_pos (List.forall_mem_cons.mpr ⟨hfirst, hothers⟩)]
        rfl
      · rw [if_pos hfirst, if_neg hothers, if_neg (fun hall => hothers (List.forall_mem_cons.mp hall).2)]
        rfl
    · rw [if_neg hfirst, if_neg (fun hall => hfirst (List.forall_mem_cons.mp hall).1)]
      rfl

namespace Session

/-- A name that is not there is put at the end. -/
theorem setParameter_new {name : String} {parameters : List (String × String)} (h : name ∉ parameters.map Prod.fst)
    (value : String) : setParameter name value parameters = parameters ++ [(name, value)] := by
  induction parameters with
  | nil => rfl
  | cons p parameters ih =>
    simp only [List.map_cons, List.mem_cons, not_or] at h
    simp [setParameter, Ne.symm h.1, ih h.2]

/-- The names are those that were there, and the one given if it is new. -/
theorem setParameter_names (name value : String) (parameters : List (String × String)) :
    (setParameter name value parameters).map Prod.fst =
      if name ∈ parameters.map Prod.fst then parameters.map Prod.fst else parameters.map Prod.fst ++ [name] := by
  by_cases h : name ∈ parameters.map Prod.fst
  · rw [if_pos h]
    induction parameters with
    | nil => exact absurd h List.not_mem_nil
    | cons p parameters ih =>
      rw [setParameter]
      split
      · simp_all
      · rename_i hne
        have hmem : name ∈ parameters.map Prod.fst := by
          simp only [List.map_cons, List.mem_cons] at h
          exact h.resolve_left (fun e => hne (by simp [e]))
        rw [List.map_cons, ih hmem, List.map_cons]
  · rw [if_neg h, setParameter_new h]
    simp

/-- Setting a parameter adds no name twice. -/
theorem setParameter_nodup {parameters : List (String × String)} (h : (parameters.map Prod.fst).Nodup) (name value : String) :
    ((setParameter name value parameters).map Prod.fst).Nodup := by
  rw [setParameter_names]
  split
  · exact h
  · rename_i hnew
    rw [List.nodup_append]
    exact ⟨h, by simp, fun a ha b hb hab => hnew (by simp_all)⟩

/-- Parameters with distinct names are read back in their order. -/
theorem parametersOfJson?_map_toJson {α β : Type} (f : α → β) {parameters : List (String × String)}
    (h : (parameters.map Prod.fst).Nodup) :
    parametersOfJson? (Json.map f (.object (parameters.map (fun p => (p.1, .text p.2))))) = some parameters := by
  -- what is read so far stands in front
  have hread : ∀ (done rest : List (String × String)), ((done ++ rest).map Prod.fst).Nodup →
      (rest.map (fun p => (p.1, Json.text (α := β) p.2))).foldlM
        (fun parameters f => f.2.text?.map (fun value => setParameter f.1 value parameters)) done = some (done ++ rest) := by
    intro done rest
    induction rest generalizing done with
    | nil => simp
    | cons p rest ih =>
      intro hnodup
      have hnew : p.1 ∉ done.map Prod.fst := by
        simp only [List.map_append, List.map_cons, List.nodup_append] at hnodup
        exact fun hmem => hnodup.2.2 p.1 hmem p.1 List.mem_cons_self rfl
      have hnext := ih (done ++ [p]) (by simpa using hnodup)
      simpa [Json.text?, setParameter_new hnew] using hnext
  rw [Json.map_object, List.map_map]
  exact hread [] parameters h

/-- The times of a session. -/
def times {α : Type} (s : Session α) : List α := s.totalDuration :: s.events.flatMap Event.times

/-- A session whose points in time have a text that is read, whose counts have 64 bits, and whose parameters have distinct names. -/
structure Readable {α : Type} (s : Session α) : Prop where
  start : (Timestamp.ofText? s.startTime.text).isSome = true
  parameters : (s.parameters.map Prod.fst).Nodup
  events : ∀ e ∈ s.events, e.Readable

/-- A session with its times and points in time as their texts are read. -/
def reread (s : Session Float) : Session Float :=
  { s with
    startTime := s.startTime.reread
    totalDuration := Json.reread s.totalDuration
    events := s.events.map Event.reread }

/-- A session is read, with its times reread, if these are finite; else it is not read. -/
theorem ofJson?_map_toJson {s : Session Float} (h : s.Readable) :
    ofJson? (s.toJson.map Json.reread) = if ∀ x ∈ s.times, x.isFinite = true then some s.reread else none := by
  have htotal := Json.quantity?_map_ofQuantity Json.reread s.totalDuration
  have hstart := Timestamp.ofJson?_text (α := Float) h.start
  have hparameters := parametersOfJson?_map_toJson Json.reread h.parameters
  have hevents := Event.listOfJson?_map_toJson h.events
  have hfinite : Quantity.isFinite s.totalDuration = s.totalDuration.isFinite := rfl
  have htimes : (∀ x ∈ s.times, x.isFinite = true) ↔
      s.totalDuration.isFinite = true ∧ ∀ e ∈ s.events, ∀ x ∈ e.times, x.isFinite = true := by
    rw [times, List.forall_mem_cons, List.forall_mem_flatMap]
  rw [hfinite] at htotal
  rw [toJson, Json.map_object, ofJson?, Json.record?_object (by rfl) (by decide)]
  simp only [List.map_cons, List.map_nil, Option.bind_eq_bind, Option.bind]
  generalize Json.map Json.reread (.object _) = parameters at hparameters ⊢
  generalize Json.map Json.reread (.array _) = events at hevents ⊢
  simp [Json.map, Json.Record.required?, Json.Record.orElse?, Json.Record.get?, Json.optional?_text, Json.text?, htotal, hstart,
    hparameters, hevents, htimes, Option.bind]
  by_cases htotal : s.totalDuration.isFinite = true
  · by_cases hevents : ∀ e ∈ s.events, ∀ x ∈ e.times, x.isFinite = true
    · rw [if_pos htotal, if_pos hevents, if_pos ⟨htotal, hevents⟩]
      rfl
    · rw [if_pos htotal, if_neg hevents, if_neg (fun hall => hevents hall.2)]
  · rw [if_neg htotal, if_neg (fun hall : _ ∧ _ => htotal hall.1)]

end Session

/-! ## Texts -/

section Texts

open Json

/-- A quantity can be printed: a number that is not finite is written as `null`. -/
theorem Json.printed_ofQuantity (x : Float) : Printed (ofQuantity x) := by
  rw [ofQuantity]
  split
  · rename_i hfinite
    exact .number hfinite
  · exact .null

/-- A text that may be there can be printed. -/
theorem Json.printed_optionalText (o : Option String) : Printed (ofOption .text o) := by
  cases o <;> constructor

/-- A count that may be there can be printed. -/
theorem Json.printed_optionalCount {o : Option Nat} (h : ∀ n ∈ o, n < Number.twoPow 64) : Printed (ofOption .ofNat o) := by
  cases o with
  | none => exact .null
  | some n => exact .int (by simp [Number.twoPow]) (by exact_mod_cast h n rfl)

/-- An event can be printed. -/
theorem Event.printed_toJson {e : Event Float} (h : e.Readable) : Printed e.toJson := by
  have hcount : ∀ o ∈ [e.estimatedRows, e.estimatedKbytes], Printed (ofOption .ofNat o) :=
    fun o ho => printed_optionalCount (h.estimates o ho)
  refine .object (fun f hf => ?_)
  simp only [List.mem_cons, List.not_mem_nil, or_false] at hf
  rcases hf with rfl | rfl | rfl | rfl | rfl | rfl | rfl | rfl | rfl | rfl | rfl
  · exact printed_optionalText _
  · exact .text _
  · exact printed_ofQuantity _
  · exact printed_ofQuantity _
  · exact .text _
  · exact printed_ofQuantity _
  · exact .text _
  · exact .text _
  · exact .bool _
  · exact hcount _ (by simp)
  · exact hcount _ (by simp)

namespace Session

/-- A session can be printed. -/
theorem printed_toJson {s : Session Float} (h : s.Readable) : Printed s.toJson := by
  have hparameters : Printed (.object (s.parameters.map (fun p => (p.1, .text p.2)))) := by
    refine .object (fun f hf => ?_)
    obtain ⟨p, -, rfl⟩ := List.mem_map.mp hf
    exact .text _
  have hevents : Printed (.array (s.events.map Event.toJson)) := by
    refine .array (fun v hv => ?_)
    obtain ⟨e, he, rfl⟩ := List.mem_map.mp hv
    exact e.printed_toJson (h.events e he)
  refine .object (fun f hf => ?_)
  simp only [List.mem_cons, List.not_mem_nil, or_false] at hf
  rcases hf with rfl | rfl | rfl | rfl | rfl | rfl | rfl | rfl | rfl
  · exact .text _
  · exact printed_optionalText _
  · exact .text _
  · exact hparameters
  · exact .text _
  · exact printed_ofQuantity _
  · exact .text _
  · exact printed_optionalText _
  · exact hevents

/-- A session that is saved is read if its times are finite. -/
theorem ofText_toText {s : Session Float} (h : s.Readable) :
    ofText s.toText = if ∀ x ∈ s.times, x.isFinite = true then .ok s.reread else .error .serialization := by
  have hread : Json.ofText? s.toText = some (s.toJson.map Json.reread) := (printed_toJson h).ofText?_toText
  rw [ofText, hread, Option.bind_some, ofJson?_map_toJson h]
  by_cases hfinite : ∀ x ∈ s.times, x.isFinite = true
  · rw [if_pos hfinite, if_pos hfinite]
  · rw [if_neg hfinite, if_neg hfinite]

end Session

/-! ## Sessions that come back as they were -/

section Storable

variable {α : Type} [Quantity α]

/-- An event whose times are finite, whose points in time have a text that is read back, and whose counts have 64 bits. -/
structure Event.Storable (e : Event α) : Prop where
  finite : ∀ x ∈ e.times, Quantity.isFinite x = true
  stamps : ∀ t ∈ [e.startTime, e.endTime], Timestamp.ofText? t.text = some t
  estimates : ∀ o ∈ [e.estimatedRows, e.estimatedKbytes], ∀ n ∈ o, n < Number.twoPow 64

/-- An event that can be stored can be read. -/
theorem Event.Storable.readable {e : Event α} (h : e.Storable) : e.Readable :=
  ⟨fun t ht => by rw [h.stamps t ht]; rfl, h.estimates⟩

/-- A point in time whose text is read as itself is not changed by rereading. -/
theorem Timestamp.reread_eq {t : Timestamp} (h : ofText? t.text = some t) : t.reread = t := by
  rw [reread, h]
  rfl

/-- An event that can be stored is not changed by rereading, if its times are not. -/
theorem Event.Storable.reread_eq {e : Event Float} (h : e.Storable) (htimes : ∀ x ∈ e.times, NumberReadBack x) : e.reread = e := by
  rw [reread, (htimes e.duration (by simp [times])).reread_eq, (htimes e.cpuTime (by simp [times])).reread_eq,
    (htimes e.netParallelDuration (by simp [times])).reread_eq, Timestamp.reread_eq (h.stamps e.startTime (by simp)),
    Timestamp.reread_eq (h.stamps e.endTime (by simp))]

namespace Session

/-- A session whose times are finite, whose points in time have a text that is read back, and whose parameters have distinct
names. -/
structure Storable (s : Session α) : Prop where
  total : Quantity.isFinite s.totalDuration = true
  start : Timestamp.ofText? s.startTime.text = some s.startTime
  parameters : (s.parameters.map Prod.fst).Nodup
  events : ∀ e ∈ s.events, e.Storable

/-- A session that can be stored can be read. -/
theorem Storable.readable {s : Session α} (h : s.Storable) : s.Readable :=
  ⟨by rw [h.start]; rfl, h.parameters, fun e he => (h.events e he).readable⟩

/-- The times of a session that can be stored are finite. -/
theorem Storable.finite {s : Session α} (h : s.Storable) : ∀ x ∈ s.times, Quantity.isFinite x = true := by
  rw [times, List.forall_mem_cons, List.forall_mem_flatMap]
  exact ⟨h.total, fun e he => (h.events e he).finite⟩

/-- A session that can be stored is not changed by rereading, if its times are not. -/
theorem Storable.reread_eq {s : Session Float} (h : s.Storable) (htimes : ∀ x ∈ s.times, NumberReadBack x) : s.reread = s := by
  rw [times, List.forall_mem_cons, List.forall_mem_flatMap] at htimes
  rw [reread, Timestamp.reread_eq h.start, htimes.1.reread_eq,
    List.map_congr_left (fun e he => (h.events e he).reread_eq (htimes.2 e he)), List.map_id']

/-- A session that can be stored is read back from its text, if its times are. -/
theorem Storable.ofText_toText {s : Session Float} (h : s.Storable) (htimes : ∀ x ∈ s.times, NumberReadBack x) :
    ofText s.toText = .ok s := by
  rw [Session.ofText_toText h.readable, if_pos (show ∀ x ∈ s.times, x.isFinite = true from h.finite), h.reread_eq htimes]

/-- A session with more parameters. -/
def withParameters {α : Type} (s : Session α) (parameters : List (String × String)) : Session α :=
  parameters.foldl (fun s p => s.withParameter p.1 p.2) s

/-- A session can still be stored when parameters are set. -/
theorem Storable.withParameters {s : Session α} (h : s.Storable) (parameters : List (String × String)) :
    (s.withParameters parameters).Storable := by
  induction parameters generalizing s with
  | nil => exact h
  | cons p parameters ih => exact ih { h with parameters := setParameter_nodup h.parameters p.1 p.2 }

/-- Parameters add no times. -/
theorem times_withParameters {α : Type} (s : Session α) (parameters : List (String × String)) :
    (s.withParameters parameters).times = s.times := by
  induction parameters generalizing s with
  | nil => rfl
  | cons p parameters ih => exact ih (s.withParameter p.1 p.2)

/-- A session that is saved and read again is the same session, its parameters in their order with the last value of each name,
and the same plans are made of it. -/
theorem reload_withParameters (s : Session Float) (parameters : List (String × String)) (h : s.Storable)
    (htimes : ∀ x ∈ s.times, NumberReadBack x) :
    let saved := s.withParameters parameters
    ∃ reloaded, ofText saved.toText = .ok reloaded ∧ reloaded = saved ∧
      ∀ enricher resolver, reloaded.rederive enricher resolver = saved.rederive enricher resolver := by
  intro saved
  have hread : ofText saved.toText = .ok saved :=
    (h.withParameters parameters).ofText_toText (fun x hx => htimes x (times_withParameters s parameters ▸ hx))
  exact ⟨saved, hread, rfl, fun _ _ => rfl⟩

/-- A session with one event of which some fields are absent, and with a name given twice. -/
theorem reload_withParameters_sales :
    let scan : Event Float := (Event.ofDuration (some "Sales") "SELECT [a\tb]" 6.0).withEstimates 1200 0
    let hit : Event Float := (Event.ofDuration none "" 0.5).withSubclass .vertipaqCacheExactMatch
    let s : Session Float := ((ofPhysical "a1" "EVALUATE \"Sales\"" "Scan_Vertipaq: 'Sales'" ⟨1714555800, 250000000⟩
      12.5).withLogicalPlan "").withEvents [scan, hit]
    let saved := s.withParameters [("@Year", "2023"), ("@Region", "EU"), ("@Year", "2024")]
    s.Storable ∧ (∀ x ∈ s.times, NumberReadBack x) ∧ ofText saved.toText = .ok saved ∧
      saved.parameters = [("@Year", "2024"), ("@Region", "EU")] := by
  intro scan hit s saved
  have hstorable : s.Storable := by
    have hscan : scan.Storable := ⟨by decide +kernel, by decide +kernel, by decide⟩
    have hhit : hit.Storable := ⟨by decide +kernel, by decide +kernel, by decide⟩
    exact ⟨by decide +kernel, by decide +kernel, by decide, by simpa [s, withEvents] using ⟨hscan, hhit⟩⟩
  have htimes : ∀ x ∈ s.times, NumberReadBack x := by
    intro x hx
    change x ∈ [12.5, 6.0, 6.0, 6.0, 0.5, 0.5, 0.5] at hx
    simp only [List.mem_cons, List.not_mem_nil, or_false] at hx
    rcases hx with rfl | rfl | rfl | rfl | rfl | rfl | rfl <;> rfl
  obtain ⟨reloaded, hread, rfl, -⟩ :=
    reload_withParameters s [("@Year", "2023"), ("@Region", "EU"), ("@Year", "2024")] hstorable htimes
  exact ⟨hstorable, htimes, hread, by decide⟩

end Session

end Storable

end Texts

end DaxPlan
