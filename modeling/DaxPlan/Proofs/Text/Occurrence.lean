import DaxPlan.Text.Occurrence

/-!
# What is found in a text

What stands at the front of a text is found with the characters it takes, and the text behind it is read in turn
(`occurrences_found`). Where nothing stands, reading goes on behind one character.
-/

namespace DaxPlan.Text

variable {β : Type} {find : Finder β} {value : β} {c : Char} {s written rest : List Char}

/-- Characters that belong to a find are passed over. -/
theorem pieces_skip (find : Finder β) (skip : Nat) (s : List Char) : pieces find skip s = pieces find 0 (s.drop skip) := by
  induction s generalizing skip with
  | nil => rw [List.drop_nil, pieces, pieces]
  | cons c s ih =>
    cases skip with
    | zero => rfl
    | succ skip => rw [pieces, ih, List.drop_succ_cons]

/-- What is found takes its characters, and the text behind it is read in turn. -/
theorem pieces_found (hne : written ≠ []) (h : find (written ++ rest) = some (value, written.length)) :
    pieces find 0 (written ++ rest) = .found value written :: pieces find 0 rest := by
  obtain ⟨c, s, rfl⟩ := List.exists_cons_of_ne_nil hne
  rw [List.cons_append] at h ⊢
  rw [pieces, h]
  dsimp only
  rw [pieces_skip, List.length_cons, Nat.add_sub_cancel, List.drop_left, List.take_succ_cons, List.take_left]

/-- A character where nothing is found is a piece of its own. -/
theorem pieces_other (h : find (c :: s) = none) : pieces find 0 (c :: s) = .other c :: pieces find 0 s := by
  rw [pieces, h]

/-- What is found at the start of a text is the first find. -/
theorem occurrences_found (hne : written ≠ []) (h : find (written ++ rest) = some (value, written.length)) :
    occurrences find (written ++ rest) = value :: occurrences find rest := by
  rw [occurrences, pieces_found hne h]
  rfl

/-- A character where nothing is found adds nothing to the finds. -/
theorem occurrences_other (h : find (c :: s) = none) : occurrences find (c :: s) = occurrences find s := by
  rw [occurrences, pieces_other h]
  rfl

/-- Nothing is found in a text at none of whose characters anything can stand. -/
theorem occurrences_append_left {p : List Char} (h : ∀ c ∈ p, ∀ s, find (c :: s) = none) (s : List Char) :
    occurrences find (p ++ s) = occurrences find s := by
  induction p with
  | nil => rfl
  | cons c p ih =>
    obtain ⟨hc, hp⟩ := List.forall_mem_cons.mp h
    rw [List.cons_append, occurrences_other (hc _), ih hp]

end DaxPlan.Text
