import DaxPlan.Text.QuotedName
import Mathlib.Data.List.TakeDrop

/-!
# Where a quoted name ends

Behind an opening apostrophe a name runs up to the first apostrophe that closes it: one with no other behind it, or the one that
is followed by the last apostrophe of the text (`Closes`). Up to there apostrophes stand in pairs. So a quoted name is told by
how the text goes on (`name?_eq_some`), and what stands at an apostrophe is one of three things (`name?_cases`). A name whose
apostrophes are doubled when it is quoted is read up to its end (`closedName?_quoteName`), and what is read is the name with its
apostrophes doubled (`undouble_double`).
-/

namespace DaxPlan.Text

/-- Apostrophes stand in pairs only. -/
inductive Paired : List Char → Prop where
  | nil : Paired []
  | pair {s : List Char} : Paired s → Paired ('\'' :: '\'' :: s)
  | char {c : Char} {s : List Char} : c ≠ '\'' → Paired s → Paired (c :: s)

/-- What may stand behind the apostrophe that closes a name: no other apostrophe, or the last one of the text. -/
def Closes (rest : List Char) : Prop := rest.head? ≠ some '\'' ∨ ∃ more, rest = '\'' :: more ∧ '\'' ∉ more

variable {c : Char} {s name rest : List Char}

/-- Where there is no apostrophe there is none without a partner. -/
theorem Paired.of_not_mem (h : '\'' ∉ s) : Paired s := by
  induction s with
  | nil => exact nil
  | cons c s ih =>
    obtain ⟨hc, hs⟩ := List.ne_and_not_mem_of_not_mem_cons h
    exact char (Ne.symm hc) (ih hs)

/-- Where a name is closed behind an apostrophe, it does not start with another one. -/
theorem Closes.head_ne (h : Closes (name ++ '\'' :: rest)) (hne : name ≠ []) : name.head? ≠ some '\'' := by
  obtain ⟨c, name, rfl⟩ := List.exists_cons_of_ne_nil hne
  obtain hhead | ⟨more, heq, hmore⟩ := h
  · exact hhead
  · obtain ⟨-, rfl⟩ := List.cons.inj heq
    exact absurd (List.mem_append_right name List.mem_cons_self) hmore

/-! ## Single apostrophes -/

/-- Another character belongs to what is quoted. -/
theorem untilApostrophe_char (h : c ≠ '\'') (s : List Char) :
    untilApostrophe (c :: s) = (untilApostrophe s).map (fun cut => (c :: cut.1, cut.2)) := by
  rw [untilApostrophe, if_neg (fun he => h (beq_iff_eq.mp he))]
  exact fun _ he _ => h he

/-- An apostrophe with no other behind it closes. -/
theorem untilApostrophe_single (h : rest.head? ≠ some '\'') : untilApostrophe ('\'' :: rest) = some ([], rest) := by
  rw [untilApostrophe, beq_self_eq_true, if_pos rfl]
  rintro more - rfl
  exact h rfl

/-- Pairs of apostrophes close nothing. -/
theorem Paired.untilApostrophe_append (hname : Paired name) (hrest : rest.head? ≠ some '\'') :
    untilApostrophe (name ++ '\'' :: rest) = some (name, rest) := by
  induction hname with
  | nil => exact untilApostrophe_single hrest
  | pair _ ih =>
    rw [List.cons_append, List.cons_append, untilApostrophe, ih]
    rfl
  | char hc _ ih =>
    rw [List.cons_append, untilApostrophe_char hc, ih]
    rfl

/-- Where apostrophes stand in pairs only, none of them closes. -/
theorem Paired.untilApostrophe_eq_none (h : Paired s) : untilApostrophe s = none := by
  induction h with
  | nil => rfl
  | pair _ ih =>
    rw [untilApostrophe, ih]
    rfl
  | char hc _ ih =>
    rw [untilApostrophe_char hc, ih]
    rfl

/-- Either apostrophes stand in pairs only, or there is a first one without a partner. -/
theorem paired_or_single (s : List Char) :
    Paired s ∨ ∃ name rest, s = name ++ '\'' :: rest ∧ Paired name ∧ rest.head? ≠ some '\'' := by
  induction s using untilApostrophe.induct with
  | case1 s ih =>
    obtain hs | ⟨name, rest, rfl, hname, hrest⟩ := ih
    · exact Or.inl hs.pair
    · exact Or.inr ⟨'\'' :: '\'' :: name, rest, rfl, hname.pair, hrest⟩
  | case2 c s hpair hc =>
    obtain rfl := eq_of_beq hc
    refine Or.inr ⟨[], s, rfl, Paired.nil, fun hs => ?_⟩
    obtain ⟨more, rfl⟩ := List.head?_eq_some_iff.mp hs
    exact hpair more rfl rfl
  | case3 c s hpair hc ih =>
    have hc : c ≠ '\'' := fun he => hc (beq_iff_eq.mpr he)
    obtain hs | ⟨name, rest, rfl, hname, hrest⟩ := ih
    · exact Or.inl (hs.char hc)
    · exact Or.inr ⟨c :: name, rest, rfl, hname.char hc, hrest⟩
  | case4 => exact Or.inl Paired.nil

/-! ## The last pair -/

/-- Another character belongs to what stands before the last pair. -/
theorem untilLastPair_char (h : c ≠ '\'') (s : List Char) :
    untilLastPair (c :: s) = (untilLastPair s).map (fun cut => (c :: cut.1, cut.2)) := by
  rw [untilLastPair]
  exact fun _ he _ => h he

/-- Where there is no apostrophe there is no pair. -/
theorem untilLastPair_eq_none (h : '\'' ∉ s) : untilLastPair s = none := by
  induction s with
  | nil => rfl
  | cons c s ih =>
    obtain ⟨hc, hs⟩ := List.ne_and_not_mem_of_not_mem_cons h
    rw [untilLastPair_char (Ne.symm hc), ih hs]
    rfl

/-- A pair with no apostrophe behind it is the last one. -/
theorem Paired.untilLastPair_append (hname : Paired name) (hrest : '\'' ∉ rest) :
    untilLastPair (name ++ '\'' :: '\'' :: rest) = some (name, '\'' :: rest) := by
  induction hname with
  | nil => rw [List.nil_append, untilLastPair, untilLastPair_eq_none hrest]
  | pair _ ih => rw [List.cons_append, List.cons_append, untilLastPair, ih]
  | char hc _ ih =>
    rw [List.cons_append, untilLastPair_char hc, ih]
    rfl

/-- Where apostrophes stand in pairs there is none, or a last pair. -/
theorem Paired.none_or_last (h : Paired s) :
    '\'' ∉ s ∨ ∃ name rest, s = name ++ '\'' :: '\'' :: rest ∧ Paired name ∧ '\'' ∉ rest := by
  induction h with
  | nil => exact Or.inl List.not_mem_nil
  | @pair s _ ih =>
    obtain hs | ⟨name, rest, rfl, hname, hrest⟩ := ih
    · exact Or.inr ⟨[], s, rfl, nil, hs⟩
    · exact Or.inr ⟨'\'' :: '\'' :: name, rest, rfl, hname.pair, hrest⟩
  | @char c s hc _ ih =>
    obtain hs | ⟨name, rest, rfl, hname, hrest⟩ := ih
    · exact Or.inl (List.not_mem_cons_of_ne_of_not_mem (Ne.symm hc) hs)
    · exact Or.inr ⟨c :: name, rest, rfl, hname.char hc, hrest⟩

/-! ## Quoted names -/

/-- A quoted name starts with an apostrophe. -/
theorem name?_of_ne (h : c ≠ '\'') (s : List Char) : name? (c :: s) = none := by
  unfold name?
  split
  next heq => exact absurd (List.cons.inj heq).1 h
  next => rfl

/-- Behind an apostrophe a name runs up to a single apostrophe, else up to the last pair. -/
theorem name?_apostrophe (s : List Char) :
    name? ('\'' :: s) = Option.filter (fun cut => !cut.1.isEmpty)
      (match untilApostrophe s with
        | some cut => some cut
        | none => untilLastPair s) := rfl

/-- The name behind an apostrophe ends where an apostrophe closes it; an empty one is no name. -/
theorem name?_append (hname : Paired name) (hrest : Closes rest) :
    name? ('\'' :: (name ++ '\'' :: rest)) = if name.isEmpty then none else some (name, rest) := by
  have hcut : (match untilApostrophe (name ++ '\'' :: rest) with
      | some cut => some cut
      | none => untilLastPair (name ++ '\'' :: rest)) = some (name, rest) := by
    obtain hrest | ⟨more, rfl, hmore⟩ := hrest
    · rw [hname.untilApostrophe_append hrest]
    · have hpaired : Paired (name ++ '\'' :: '\'' :: more) := by
        induction hname with
        | nil => exact (Paired.of_not_mem hmore).pair
        | pair _ ih => exact ih.pair
        | char hc _ ih => exact ih.char hc
      rw [hpaired.untilApostrophe_eq_none]
      exact hname.untilLastPair_append hmore
  rw [name?_apostrophe, hcut]
  cases name <;> rfl

/-- A name that is not empty is read up to the apostrophe that closes it. -/
theorem name?_eq_some (hne : name ≠ []) (hname : Paired name) (hrest : Closes rest) :
    name? ('\'' :: (name ++ '\'' :: rest)) = some (name, rest) := by
  rw [name?_append hname hrest, if_neg (fun he => hne (List.isEmpty_iff.mp he))]

/-- Two apostrophes with nothing between them quote no name. -/
theorem name?_empty (hrest : Closes rest) : name? ('\'' :: '\'' :: rest) = none :=
  name?_append Paired.nil hrest

/-- An apostrophe that nothing closes quotes no name. -/
theorem name?_open (h : '\'' ∉ s) : name? ('\'' :: s) = none := by
  rw [name?_apostrophe, (Paired.of_not_mem h).untilApostrophe_eq_none, untilLastPair_eq_none h]
  rfl

/-- What stands at an apostrophe: the last apostrophe of the text, an empty quotation, or a quoted name. -/
theorem name?_cases (s : List Char) :
    ('\'' ∉ s ∧ name? ('\'' :: s) = none) ∨
    (∃ rest, s = '\'' :: rest ∧ Closes rest ∧ name? ('\'' :: s) = none) ∨
    (∃ name rest, s = name ++ '\'' :: rest ∧ name ≠ [] ∧ Paired name ∧ Closes rest ∧
      name? ('\'' :: s) = some (name, rest)) := by
  have hcut : '\'' ∉ s ∨ ∃ name rest, s = name ++ '\'' :: rest ∧ Paired name ∧ Closes rest := by
    obtain hs | ⟨name, rest, rfl, hname, hrest⟩ := paired_or_single s
    · obtain hs | ⟨name, rest, rfl, hname, hrest⟩ := hs.none_or_last
      · exact Or.inl hs
      · exact Or.inr ⟨name, '\'' :: rest, rfl, hname, Or.inr ⟨rest, rfl, hrest⟩⟩
    · exact Or.inr ⟨name, rest, rfl, hname, Or.inl hrest⟩
  obtain hs | ⟨name, rest, rfl, hname, hrest⟩ := hcut
  · exact Or.inl ⟨hs, name?_open hs⟩
  · by_cases hne : name = []
    · subst hne
      exact Or.inr (Or.inl ⟨rest, rfl, hrest, name?_empty hrest⟩)
    · exact Or.inr (Or.inr ⟨name, rest, rfl, hne, hname, hrest, name?_eq_some hne hname hrest⟩)

/-! ## Writing names -/

/-- Doubled apostrophes stand in pairs. -/
theorem Paired.double (name : List Char) : Paired (doubleApostrophes name) := by
  induction name with
  | nil => exact nil
  | cons c name ih =>
    rw [doubleApostrophes]
    split
    next => exact ih.pair
    next hc => exact ih.char (fun he => hc (beq_iff_eq.mpr he))

/-- Apostrophes that are doubled can be halved again. -/
theorem undouble_double (name : List Char) : undoubleApostrophes (doubleApostrophes name) = name := by
  induction name with
  | nil => rfl
  | cons c name ih =>
    rw [doubleApostrophes]
    split
    next hc => rw [undoubleApostrophes, ih, eq_of_beq hc]
    next hc =>
      rw [undoubleApostrophes, ih]
      exact fun _ he _ => hc (beq_iff_eq.mpr he)

/-- Doubling leaves something of a name that is not empty. -/
theorem doubleApostrophes_ne_nil (hne : name ≠ []) : doubleApostrophes name ≠ [] := by
  obtain ⟨c, name, rfl⟩ := List.exists_cons_of_ne_nil hne
  rw [doubleApostrophes]
  split <;> exact List.cons_ne_nil _ _

/-- A quoted name: an apostrophe, the name with its apostrophes doubled, and another apostrophe. -/
theorem quoteName_append (name rest : List Char) :
    quoteName name ++ rest = '\'' :: (doubleApostrophes name ++ '\'' :: rest) := by
  rw [quoteName, List.append_assoc, List.cons_append, List.singleton_append]

/-- A quoted name is read up to its closing apostrophe if no other one stands behind that. -/
theorem closedName?_quoteName (hne : name ≠ []) (hrest : rest.head? ≠ some '\'') :
    closedName? (quoteName name ++ rest) = some (doubleApostrophes name, rest) := by
  rw [quoteName_append, closedName?, (Paired.double name).untilApostrophe_append hrest]
  simp [doubleApostrophes_ne_nil hne]

/-! ## Names without apostrophes -/

/-- There is nothing to be halved where there is no apostrophe. -/
theorem undoubleApostrophes_eq (h : '\'' ∉ s) : undoubleApostrophes s = s := by
  induction s with
  | nil => rfl
  | cons c s ih =>
    obtain ⟨hc, hs⟩ := List.ne_and_not_mem_of_not_mem_cons h
    rw [undoubleApostrophes, ih hs]
    exact fun _ he _ => hc he.symm

/-! ## Names in brackets -/

/-- A name in brackets runs up to the first closing one. -/
theorem bracketed?_append (hne : name ≠ []) (hname : ']' ∉ name) (rest : List Char) :
    bracketed? ('[' :: (name ++ ']' :: rest)) = some (name, rest) := by
  have hinner : ∀ c ∈ name, (c != ']') = true := fun c hc => bne_iff_ne.mpr (fun he => hname (he ▸ hc))
  have hspan : (name ++ ']' :: rest).span (· != ']') = (name, ']' :: rest) := by
    rw [List.span_eq_takeWhile_dropWhile, List.takeWhile_append_of_pos hinner, List.dropWhile_append_of_pos hinner]
    simp
  rw [bracketed?, hspan]
  simp [hne]

/-- A name in brackets stands before a closing one. -/
theorem bracketed?_spec (h : bracketed? s = some (name, rest)) : s = '[' :: (name ++ ']' :: rest) := by
  unfold bracketed? at h
  split at h
  next s =>
    rw [List.span_eq_takeWhile_dropWhile] at h
    split at h
    next c rest' heq =>
      obtain ⟨rfl, hdrop⟩ := Prod.mk.inj heq
      split at h
      next => cases h
      next =>
        obtain ⟨rfl, rfl⟩ := Prod.mk.inj (Option.some.inj h)
        have hc : c = ']' := by
          have hnot := List.head_dropWhile_not (· != ']') (hdrop ▸ List.cons_ne_nil c rest' : s.dropWhile (· != ']') ≠ [])
          simpa [hdrop] using hnot
        subst hc
        rw [← hdrop, List.takeWhile_append_dropWhile]
    next => cases h
  next => cases h

end DaxPlan.Text
