import DaxPlan.Proofs.Text.Blank
import DaxPlan.Row
import Mathlib.Data.List.TakeDrop

/-!
# What a row takes from its line

A row is told by three things of its line: the record count of the grid if it is copied from one, its level, and what stands
between the blanks at its ends (`ofText_eq`). A line of a grid has the plan line in its third field (`reading?_grid`); any other
line is the plan line itself (`reading?_plain`). The carriage return that a plan line may end with is one more blank at its end.
-/

namespace DaxPlan.Row

variable {config : ParserConfig} {line blanks number records first rest : List Char}

/-- What is read of a line that is a row: the record count of the grid, the level and the content. -/
def reading? (config : ParserConfig) (line : List Char) : Option (Option Nat × Nat × List Char) :=
  if Text.isBlankText line || isGridHeader line then none
  else
    let grid := (gridRow? line).getD (none, line)
    some (grid.1, measureIndent grid.2 config.indentWidth)

/-- The row that is made of what is read of its line. -/
def ofReading (config : ParserConfig) (reading : Option Nat × Nat × List Char) (number : Nat) : Row :=
  let (operation, details) := splitOperation reading.2.2
  let tokens := tokens details
  { number
    indentLevel := reading.2.1
    operation := String.ofList operation
    details := String.ofList details
    operator := Operator.ofBaseName (Operator.baseName operation)
    recordCount := reading.1.orElse (fun _ => tokens.findSome? (Token.records? config.recordCountKeys))
    logicalOp := logicalOpOf tokens }

/-- The rows of a text are made of what is read of its lines. -/
theorem ofText_eq (config : ParserConfig) (text : String) :
    ofText config text =
      ((Text.lines text.toList).filterMap (reading? config)).zipIdx.map (fun r => ofReading config r.1 (r.2 + 1)) := by
  have hlines : ∀ lines : List (List Char), lines.filterMap (reading? config) =
      (lines.filter (fun line => !Text.isBlankText line && !isGridHeader line)).map (fun line =>
        let grid := (gridRow? line).getD (none, line)
        (grid.1, measureIndent grid.2 config.indentWidth)) := by
    intro lines
    rw [← List.filterMap_eq_map, List.filterMap_filter]
    refine List.filterMap_congr (fun line _ => ?_)
    rw [reading?]
    cases Text.isBlankText line <;> cases isGridHeader line <;> rfl
  rw [ofText, hlines, List.zipIdx_map, List.map_map]
  rfl

/-! ## Levels -/

/-- Blanks at the end of a line mean nothing. -/
theorem measureIndent_append (hblanks : ∀ c ∈ blanks, Text.isBlank c = true) (hline : Text.isBlankText line = false)
    (indentWidth : Nat) : measureIndent (line ++ blanks) indentWidth = measureIndent line indentWidth := by
  have hdrop : (line ++ blanks).dropWhile Text.isBlank = line.dropWhile Text.isBlank ++ blanks :=
    Text.trimStart_append hline blanks
  rw [measureIndent, Text.takeWhile_append hline, hdrop, Text.trimEnd_append hblanks, measureIndent]

/-! ## Fields -/

theorem span_tab (h : '\t' ∉ first) (rest : List Char) :
    (first ++ '\t' :: rest).span (· != '\t') = (first, '\t' :: rest) := by
  have hfirst : ∀ c ∈ first, (c != '\t') = true := fun c hc => bne_iff_ne.mpr (fun he => h (he ▸ hc))
  rw [List.span_eq_takeWhile_dropWhile, List.takeWhile_append_of_pos hfirst, List.dropWhile_append_of_pos hfirst]
  simp

theorem span_whole (h : '\t' ∉ line) : line.span (· != '\t') = (line, []) := by
  have hline : ∀ c ∈ line, (c != '\t') = true := fun c hc => bne_iff_ne.mpr (fun he => h (he ▸ hc))
  rw [List.span_eq_takeWhile_dropWhile, List.takeWhile_eq_self_iff.mpr hline, List.dropWhile_eq_nil_iff.mpr hline]

theorem gridRow?_fields (hnumber : '\t' ∉ number) (hrecords : '\t' ∉ records) (line : List Char) :
    gridRow? (number ++ '\t' :: (records ++ '\t' :: line)) =
      if (Text.unsigned? (Text.trim number)).isSome then some (Text.unsigned? (Text.trim records), line) else none := by
  rw [gridRow?, span_tab hnumber]
  dsimp only
  rw [span_tab hrecords]

/-- A line of two fields at most is no row of a grid. -/
theorem gridRow?_eq_none (hnumber : '\t' ∉ number) (hrecords : '\t' ∉ records) :
    gridRow? number = none ∧ gridRow? (number ++ '\t' :: records) = none := by
  constructor
  · rw [gridRow?, span_whole hnumber]
  · rw [gridRow?, span_tab hnumber]
    dsimp only
    rw [span_whole hrecords]

/-- A line has one field, two, or more. -/
theorem fields_cases (line : List Char) :
    '\t' ∉ line ∨ (∃ first second, line = first ++ '\t' :: second ∧ '\t' ∉ first ∧ '\t' ∉ second) ∨
      ∃ first second rest, line = first ++ '\t' :: (second ++ '\t' :: rest) ∧ '\t' ∉ first ∧ '\t' ∉ second := by
  by_cases h : '\t' ∈ line
  · obtain ⟨first, rest, rfl, hfirst⟩ := List.eq_append_cons_of_mem h
    by_cases hrest : '\t' ∈ rest
    · obtain ⟨second, rest, rfl, hsecond⟩ := List.eq_append_cons_of_mem hrest
      exact Or.inr (Or.inr ⟨first, second, rest, rfl, hfirst, hsecond⟩)
    · exact Or.inr (Or.inl ⟨first, rest, rfl, hfirst, hrest⟩)
  · exact Or.inl h

/-- What is added to a line without a tab is added to its last field. -/
theorem gridRow?_append (h : '\t' ∉ rest) (line : List Char) :
    gridRow? (line ++ rest) = (gridRow? line).map (fun grid => (grid.1, grid.2 ++ rest)) := by
  have hadd : ∀ field, '\t' ∉ field → '\t' ∉ field ++ rest := fun field hfield => by simp [hfield, h]
  obtain hline | ⟨first, second, rfl, hfirst, hsecond⟩ | ⟨first, second, line, rfl, hfirst, hsecond⟩ := fields_cases line
  · rw [(gridRow?_eq_none (hadd line hline) hline).1, (gridRow?_eq_none hline hline).1]
    rfl
  · rw [List.append_assoc, List.cons_append, (gridRow?_eq_none hfirst (hadd second hsecond)).2, (gridRow?_eq_none hfirst hsecond).2]
    rfl
  · rw [List.append_assoc, List.cons_append, List.append_assoc, List.cons_append, gridRow?_fields hfirst hsecond,
      gridRow?_fields hfirst hsecond]
    split <;> rfl

/-! ## Headers -/

/-- The first field of a header is the word for lines. -/
theorem isGridHeader_first (hfirst : '\t' ∉ first) (rest : List Char) (h : isGridHeader (first ++ '\t' :: rest) = true) :
    Text.equalIgnoringAsciiCase (Text.trim first) "line".toList = true := by
  rw [isGridHeader, Text.splitAtChar_append hfirst] at h
  split at h
  · rename_i heq
    rw [(List.cons.inj heq).1]
    exact (Bool.and_eq_true_iff.mp h).1
  · cases h

theorem isGridHeader_whole (h : '\t' ∉ line) : isGridHeader line = false := by
  rw [isGridHeader, Text.splitAtChar_whole h]

/-- Blanks at its end make no header of a line, and none of what is a header. -/
theorem isGridHeader_append (hblanks : ∀ c ∈ blanks, Text.isBlank c = true) (htab : '\t' ∉ blanks) (line : List Char) :
    isGridHeader (line ++ blanks) = isGridHeader line := by
  obtain hline | ⟨first, second, rfl, hfirst, hsecond⟩ | ⟨first, second, line, rfl, hfirst, hsecond⟩ := fields_cases line
  · rw [isGridHeader_whole hline, isGridHeader_whole (by simp [hline, htab])]
  · rw [List.append_assoc, List.cons_append, isGridHeader, isGridHeader, Text.splitAtChar_append hfirst,
      Text.splitAtChar_append hfirst, Text.splitAtChar_whole hsecond, Text.splitAtChar_whole (by simp [hsecond, htab])]
    dsimp only
    rw [Text.trim_append hblanks]
  · rw [List.append_assoc, List.cons_append, List.append_assoc, List.cons_append, isGridHeader, isGridHeader,
      Text.splitAtChar_append hfirst, Text.splitAtChar_append hfirst, Text.splitAtChar_append hsecond,
      Text.splitAtChar_append hsecond]

/-- A number starts with a digit, or with a plus sign. -/
theorem unsigned?_head {c : Char} {s : List Char} (h : (Text.unsigned? (c :: s)).isSome = true) : c = '+' ∨ c.isDigit = true := by
  by_contra hc
  rw [not_or] at hc
  have hnone : Text.unsigned? (c :: s) = none := by
    unfold Text.unsigned?
    split
    · rename_i heq
      exact absurd (List.cons.inj heq).1 hc.1
    · simp [hc.2]
  rw [hnone] at h
  cases h

/-- A number is not the word for lines. -/
theorem number_ne_line {s : List Char} (h : (Text.unsigned? s).isSome = true) :
    Text.equalIgnoringAsciiCase s "line".toList = false := by
  have hdigit : ∀ c : Char, c.isDigit = true → c.toLower = c := by
    intro c hc
    unfold Char.toLower
    simp only [Char.isDigit, Bool.and_eq_true, decide_eq_true_eq] at hc
    grind
  cases s with
  | nil => rfl
  | cons c s =>
    have hc : c.toLower ≠ 'l' := by
      rcases unsigned?_head h with rfl | hc
      · decide
      · rw [hdigit c hc]
        rintro rfl
        cases hc
    exact beq_eq_false_iff_ne.mpr (fun he => hc (List.cons.inj he).1)

/-! ## Lines -/

/-- A plan line that is not taken for a row of a grid or for its header. -/
structure IsPlain (line : List Char) : Prop where
  nonblank : Text.isBlankText line = false
  row : gridRow? line = none
  header : isGridHeader line = false

theorem IsPlain.dropCarriageReturn (h : IsPlain line) : IsPlain (Text.dropCarriageReturn line) := by
  rcases Text.dropCarriageReturn_cases line with heq | heq
  · rwa [heq]
  · obtain ⟨hnonblank, hrow, hheader⟩ := h
    rw [heq] at hnonblank hrow hheader
    rw [Text.isBlankText_append Text.carriageReturn_blank] at hnonblank
    rw [isGridHeader_append Text.carriageReturn_blank (by decide)] at hheader
    rw [gridRow?_append (by decide), Option.map_eq_none_iff] at hrow
    exact ⟨hnonblank, hrow, hheader⟩

/-- A carriage return at the end of a line is none of its content. -/
theorem measureIndent_dropCarriageReturn (h : Text.isBlankText line = false) (indentWidth : Nat) :
    measureIndent (Text.dropCarriageReturn line) indentWidth = measureIndent line indentWidth := by
  rcases Text.dropCarriageReturn_cases line with heq | heq
  · rw [heq]
  · rw [heq, Text.isBlankText_append Text.carriageReturn_blank] at h
    conv => rhs; rw [heq, measureIndent_append Text.carriageReturn_blank h]

theorem reading?_plain (h : IsPlain line) : reading? config line = some (none, measureIndent line config.indentWidth) := by
  rw [reading?, h.nonblank, h.header, h.row]
  rfl

theorem reading?_dropCarriageReturn (h : IsPlain line) :
    reading? config (Text.dropCarriageReturn line) = reading? config line := by
  rw [reading?_plain h, reading?_plain h.dropCarriageReturn, measureIndent_dropCarriageReturn h.nonblank]

theorem reading?_header (h : isGridHeader line = true) : reading? config line = none := by
  rw [reading?, h, Bool.or_true]
  rfl

theorem reading?_dropCarriageReturn_header (h : isGridHeader line = true) :
    reading? config (Text.dropCarriageReturn line) = reading? config line := by
  rcases Text.dropCarriageReturn_cases line with heq | heq
  · rw [heq]
  · rw [reading?_header h, reading?_header]
    rwa [heq, isGridHeader_append Text.carriageReturn_blank (by decide)] at h

theorem reading?_blank (h : Text.isBlankText line = true) : reading? config line = none := by
  rw [reading?, h, Bool.true_or]
  rfl

/-- A row of a grid gives its plan line, with the count in the field before it if that is one. -/
theorem reading?_grid (hnumber : '\t' ∉ number) (hcounted : (Text.unsigned? (Text.trim number)).isSome = true)
    (hrecords : '\t' ∉ records) (hline : Text.isBlankText line = false) :
    reading? config (number ++ '\t' :: (records ++ '\t' :: line)) =
      some (Text.unsigned? (Text.trim records), measureIndent line config.indentWidth) := by
  have hnonblank : Text.isBlankText (number ++ '\t' :: (records ++ '\t' :: line)) = false := by
    rw [Text.isBlankText, List.all_eq_false] at hline ⊢
    obtain ⟨c, hc, hblank⟩ := hline
    exact ⟨c, by simp [hc], hblank⟩
  have hheader : isGridHeader (number ++ '\t' :: (records ++ '\t' :: line)) = false := by
    rw [Bool.eq_false_iff]
    intro hheader
    have hfirst := isGridHeader_first hnumber _ hheader
    rw [number_ne_line hcounted] at hfirst
    cases hfirst
  rw [reading?, hnonblank, hheader, gridRow?_fields hnumber hrecords, if_pos hcounted]
  rfl

end DaxPlan.Row
