import DaxPlan.Text.Blank
import Mathlib.Data.List.DropRight

/-!
# Trimmed texts and lines

Trimming takes blanks away at the ends and leaves the rest alone. A text that starts with whole lines has these lines and then the
lines of what follows them (`lines_append`). What does not hang on the carriage return that a line may end with can be read off
the lines as they are written, whether the last one is ended or not (`HasLines.filterMap_lines`).
-/

namespace DaxPlan.Text

variable {c sep : Char} {s blanks part line before rest : List Char}

/-! ## Trimming -/

/-- Trimming takes blanks away at both ends. -/
theorem trim_parts (s : List Char) :
    ∃ before after, s = before ++ (trim s ++ after) ∧ (∀ c ∈ before, isBlank c = true) ∧ ∀ c ∈ after, isBlank c = true := by
  refine ⟨s.takeWhile isBlank, (trimStart s).rtakeWhile isBlank, ?_, fun c hc => List.mem_takeWhile_imp hc,
    fun c hc => List.mem_rtakeWhile_imp hc⟩
  rw [show trim s = (trimStart s).rdropWhile isBlank from rfl, List.rdropWhile_append_rtakeWhile, trimStart,
    List.takeWhile_append_dropWhile]

/-- A trimmed text has no blanks at its ends. -/
theorem trim_trim (s : List Char) : trim (trim s) = trim s := by
  -- What is cut at the end is no start: the trimmed text begins as the text trimmed at its start does.
  have hstart : trimStart (trim s) = trim s := by
    refine List.dropWhile_eq_self_iff.mpr (fun hpos => ?_)
    have hinit : trim s <+: trimStart s := List.rdropWhile_prefix isBlank (trimStart s)
    rw [hinit.getElem hpos]
    exact List.dropWhile_eq_self_iff.mp (List.dropWhile_idempotent isBlank s) (hpos.trans_le hinit.length_le)
  rw [trim, hstart]
  exact List.rdropWhile_idempotent isBlank (trimStart s)

/-- A blank in front of a text is trimmed. -/
theorem trim_blank_cons (hc : isBlank c = true) (s : List Char) : trim (c :: s) = trim s := by
  rw [trim, trimStart, List.dropWhile_cons_of_pos hc]
  rfl

/-- Blanks behind a text are trimmed at its end. -/
theorem trimEnd_append (h : ∀ c ∈ blanks, isBlank c = true) (s : List Char) : trimEnd (s ++ blanks) = trimEnd s := by
  rw [trimEnd, List.reverse_append, List.dropWhile_append_of_pos (fun c hc => h c (List.mem_reverse.mp hc))]
  rfl

/-- A blank text has no character but blanks. -/
theorem isBlankText_iff : isBlankText s = true ↔ ∀ c ∈ s, isBlank c = true := List.all_eq_true

/-- A carriage return is a blank. -/
theorem carriageReturn_blank : ∀ c ∈ ['\r'], isBlank c = true := isBlankText_iff.mp (by decide)

/-- Blanks behind a text leave it blank or not. -/
theorem isBlankText_append (h : ∀ c ∈ blanks, isBlank c = true) (s : List Char) : isBlankText (s ++ blanks) = isBlankText s := by
  rw [isBlankText, List.all_append, List.all_eq_true.mpr h, Bool.and_true]
  rfl

/-- Nothing is left of a blank text. -/
theorem trimStart_of_blank (h : isBlankText s = true) : trimStart s = [] :=
  List.dropWhile_eq_nil_iff.mpr (isBlankText_iff.mp h)

/-- In a text that is more than blanks, the blanks at its end are none of those it starts with. -/
theorem trimStart_append (hs : isBlankText s = false) (rest : List Char) : trimStart (s ++ rest) = trimStart s ++ rest := by
  have hne : s.dropWhile isBlank ≠ [] := by
    rw [Ne, List.dropWhile_eq_nil_iff, ← isBlankText_iff, hs]
    exact Bool.false_ne_true
  rw [trimStart, List.dropWhile_append, if_neg (by rwa [List.isEmpty_iff])]
  rfl

/-- The blanks that such a text starts with are its own, whatever follows it. -/
theorem takeWhile_append (hs : isBlankText s = false) (rest : List Char) :
    (s ++ rest).takeWhile isBlank = s.takeWhile isBlank := by
  have hsplit := List.takeWhile_append_dropWhile (p := isBlank) (l := s ++ rest)
  rw [show (s ++ rest).dropWhile isBlank = s.dropWhile isBlank ++ rest from trimStart_append hs rest, ← List.append_assoc] at hsplit
  have hfront := List.append_cancel_right hsplit
  conv at hfront => rhs; rw [← List.takeWhile_append_dropWhile (p := isBlank) (l := s)]
  exact List.append_cancel_right hfront

/-- Blanks behind a text are trimmed with those at its ends. -/
theorem trim_append (h : ∀ c ∈ blanks, isBlank c = true) (s : List Char) : trim (s ++ blanks) = trim s := by
  cases hs : isBlankText s with
  | true => rw [trim, trim, trimStart_of_blank hs, trimStart_of_blank ((isBlankText_append h s).trans hs)]
  | false => rw [trim, trimStart_append hs, trimEnd_append h, trim]

/-! ## Parts -/

/-- There is always a part, be it empty. -/
theorem splitAtChar_ne_nil (sep : Char) (s : List Char) : splitAtChar sep s ≠ [] := by
  cases s with
  | nil => exact List.cons_ne_nil _ _
  | cons c s =>
    rw [splitAtChar]
    split
    · exact List.cons_ne_nil _ _
    · split <;> exact List.cons_ne_nil _ _

/-- A text without the separator is one part. -/
theorem splitAtChar_whole (h : sep ∉ s) : splitAtChar sep s = [s] := by
  induction s with
  | nil => rfl
  | cons c s ih =>
    obtain ⟨hc, hs⟩ := List.ne_and_not_mem_of_not_mem_cons h
    rw [splitAtChar, if_neg (fun he => hc (eq_of_beq he).symm), ih hs]

/-- What stands in front of the first separator is the first part. -/
theorem splitAtChar_append (h : sep ∉ part) (rest : List Char) :
    splitAtChar sep (part ++ sep :: rest) = part :: splitAtChar sep rest := by
  induction part with
  | nil => rw [List.nil_append, splitAtChar, if_pos (beq_self_eq_true sep)]
  | cons c part ih =>
    obtain ⟨hc, hpart⟩ := List.ne_and_not_mem_of_not_mem_cons h
    rw [List.cons_append, splitAtChar, if_neg (fun he => hc (eq_of_beq he).symm), ih hpart]

/-! ## Lines -/

/-- A text without a line feed is one line, or none if it is empty. -/
theorem lines_whole (h : '\n' ∉ line) : lines line = if line = [] then [] else [line] := by
  rw [lines, splitAtChar_whole h]
  cases line <;> rfl

/-- The first line feed ends the first line. -/
theorem lines_cons (h : '\n' ∉ line) (rest : List Char) :
    lines (line ++ '\n' :: rest) = dropCarriageReturn line :: lines rest := by
  have hne := splitAtChar_ne_nil '\n' rest
  rw [lines, lines, splitAtChar_append h, List.dropLast_cons_of_ne_nil hne, List.map_cons,
    List.getLast?_cons_of_ne_nil hne]
  split <;> rfl

/-- Whole lines, each with the line feed that ends it. -/
inductive WholeLines : List Char → Prop where
  | nil : WholeLines []
  | cons {line rest : List Char} : '\n' ∉ line → WholeLines rest → WholeLines (line ++ '\n' :: rest)

/-- A text is whole lines and the beginning of another one. -/
theorem exists_wholeLines (s : List Char) : ∃ before line, s = before ++ line ∧ WholeLines before ∧ '\n' ∉ line := by
  induction s with
  | nil => exact ⟨[], [], rfl, .nil, List.not_mem_nil⟩
  | cons c s ih =>
    obtain ⟨before, line, rfl, hbefore, hline⟩ := ih
    by_cases hc : c = '\n'
    · subst hc
      exact ⟨'\n' :: before, line, rfl, .cons List.not_mem_nil hbefore, hline⟩
    · cases hbefore with
      | nil => exact ⟨[], c :: line, rfl, .nil, List.not_mem_cons_of_ne_of_not_mem (Ne.symm hc) hline⟩
      | @cons first rest hfirst hrest =>
        exact ⟨c :: first ++ '\n' :: rest, line, by simp, .cons (List.not_mem_cons_of_ne_of_not_mem (Ne.symm hc) hfirst) hrest, hline⟩

/-- Whole lines in front of a text are lines of their own. -/
theorem lines_append (h : WholeLines before) (rest : List Char) : lines (before ++ rest) = lines before ++ lines rest := by
  induction h with
  | nil => rfl
  | cons hline _ ih => rw [List.append_assoc, List.cons_append, lines_cons hline, lines_cons hline, ih, List.cons_append]

/-! ## What is read of lines -/

/-- A line ends with the carriage return that is dropped, or has none to be dropped. -/
theorem dropCarriageReturn_cases (line : List Char) :
    dropCarriageReturn line = line ∨ line = dropCarriageReturn line ++ ['\r'] := by
  rw [dropCarriageReturn]
  split
  · rename_i hlast
    obtain ⟨s, rfl⟩ := List.getLast?_eq_some_iff.mp (eq_of_beq hlast)
    exact Or.inr (by rw [List.dropLast_concat])
  · exact Or.inl rfl

/-- The carriage return that is dropped belongs to the last part of a line. -/
theorem dropCarriageReturn_append (hne : line ≠ []) (before : List Char) :
    dropCarriageReturn (before ++ line) = before ++ dropCarriageReturn line := by
  rw [dropCarriageReturn, dropCarriageReturn, List.getLast?_append_of_ne_nil before hne]
  split
  · rw [List.dropLast_append_of_ne_nil hne]
  · rfl

section FilterMap

variable {β : Type} {f : List Char → Option β}

/-- Of a text without a line feed is read what is read of it as a line. -/
theorem filterMap_lines_whole (hempty : f [] = none) (hline : '\n' ∉ line) : (lines line).filterMap f = (f line).toList := by
  rw [lines_whole hline]
  split
  · rename_i hnil
    rw [hnil, hempty]
    rfl
  · cases hf : f line <;> simp [hf]

/-- Of the first line is read what is read of it with its carriage return. -/
theorem filterMap_lines_cons (hend : f (dropCarriageReturn line) = f line) (hline : '\n' ∉ line) (rest : List Char) :
    (lines (line ++ '\n' :: rest)).filterMap f = (f line).toList ++ (lines rest).filterMap f := by
  rw [lines_cons hline, List.filterMap_cons, hend]
  cases f line <;> rfl

/-- A text has lines: a line feed ends each, but for the last one perhaps. -/
inductive HasLines : List (List Char) → List Char → Prop where
  | nil : HasLines [] []
  | last {line : List Char} : '\n' ∉ line → HasLines [line] line
  | cons {line rest : List Char} {lines : List (List Char)} :
      '\n' ∉ line → HasLines lines rest → HasLines (line :: lines) (line ++ '\n' :: rest)

/-- What does not hang on carriage returns is read off the lines as they are written. -/
theorem HasLines.filterMap_lines {written : List (List Char)} (h : HasLines written s) (hempty : f [] = none)
    (hends : ∀ line ∈ written, f (dropCarriageReturn line) = f line) : (lines s).filterMap f = written.filterMap f := by
  induction h with
  | nil => rfl
  | @last line hline =>
    rw [filterMap_lines_whole hempty hline]
    cases hl : f line <;> simp [hl]
  | @cons line rest written hline _ ih =>
    obtain ⟨hend, hends⟩ := List.forall_mem_cons.mp hends
    rw [filterMap_lines_cons hend hline, ih hends, List.filterMap_cons]
    cases f line <;> rfl

end FilterMap

end DaxPlan.Text
