import DaxPlan.Proofs.Row.Operation
import DaxPlan.Proofs.Text.Blank

/-!
# Lines written and read back

The line of a node is its operation and, if there are any, a colon and its details. It reads back as the two it is written from
where these come from a line themselves (`lineText_reads_back`). Trimming is all that reading has done to them, and blanks leave a
scan in the zone it is in (`Passes.trim`): so the trimmed operation still leads back to the open, or to the end of the line if
there was no colon to cut at, in whatever zone that is.
-/

namespace DaxPlan

namespace Row

variable {zone zone' : Zone} {c : Char} {s u op details : List Char}

/-! ## Blanks in a scan -/

/-- A zone that a scan of a line comes to: no blank ends a quotation. -/
def Zone.Proper : Zone → Prop
  | .plain _ => True
  | .quoted q _ => Text.isBlank q = false
  | .square _ _ => True

/-- A quotation is opened by no blank. -/
theorem Zone.Proper.step (h : zone.Proper) (c : Char) : (zone.step c).Proper := by
  cases zone with
  | plain depth =>
    by_cases hquote : c = '\'' ∨ c = '"'
    · have hstep : (Zone.plain depth).step c = .quoted c depth := by simp [Zone.step, hquote]
      rw [hstep]
      rcases hquote with rfl | rfl <;> rfl
    · simp only [Zone.step, Bool.or_eq_true, beq_iff_eq, if_neg hquote]
      split_ifs <;> trivial
  | quoted q depth =>
    simp only [Zone.step]
    split_ifs
    · trivial
    · exact h
  | square nesting depth =>
    cases nesting <;> (simp only [Zone.step]; split_ifs <;> trivial)

/-- A blank means nothing to a scan. -/
theorem isPlain_blank (hc : Text.isBlank c = true) : isPlain c = true := by
  have hmarks : marks.all (fun m => !Text.isBlank m) = true := by decide
  cases hplain : isPlain c with
  | true => rfl
  | false =>
    rw [isPlain, Bool.not_eq_false', List.contains_iff_mem] at hplain
    simpa [hc] using List.all_eq_true.mp hmarks c hplain

/-- A blank leaves a scan where it stands. -/
theorem Zone.Proper.step_blank (h : zone.Proper) (hc : Text.isBlank c = true) : zone.step c = zone := by
  have hne : ∀ d, Text.isBlank d = false → c ≠ d := by
    rintro d hd rfl
    rw [hc] at hd
    cases hd
  cases zone with
  | plain depth => exact Zone.step_plain (isPlain_blank hc) depth
  | quoted q depth => simp [Zone.step, hne q h]
  | square nesting depth => simp [Zone.step, hne '[' rfl, hne ']' rfl]

namespace Passes

/-- No quotation that a scan comes to was opened by a blank. -/
theorem proper (h : Passes zone s zone') (hzone : zone.Proper) : zone'.Proper := by
  induction h with
  | done => exact hzone
  | step _ hnext _ ih => exact ih (hnext ▸ hzone.step _)

/-- Blanks leave a scan in the zone it is in. -/
theorem of_blanks (h : Passes zone s zone') (hzone : zone.Proper) (hs : ∀ c ∈ s, Text.isBlank c = true) : zone' = zone := by
  induction h with
  | done => rfl
  | step _ hnext _ ih =>
    obtain ⟨hc, hs⟩ := List.forall_mem_cons.mp hs
    rw [hzone.step_blank hc] at hnext
    subst hnext
    exact ih hzone hs

/-- A scan through two texts goes through one after the other. -/
theorem split (h : Passes zone (s ++ u) zone') : ∃ between, Passes zone s between ∧ Passes between u zone' := by
  induction s generalizing zone with
  | nil => exact ⟨zone, .done zone, h⟩
  | cons c s ih =>
    cases h with
    | step hc hnext hrest =>
      obtain ⟨between, hs, hu⟩ := ih hrest
      exact ⟨between, .step hc hnext hs, hu⟩

/-- A scan of a trimmed line comes to where a scan of the line comes. -/
theorem trim (h : Passes (.plain 0) s zone) : Passes (.plain 0) (Text.trim s) zone := by
  obtain ⟨before, after, hs, hbefore, hafter⟩ := Text.trim_parts s
  rw [hs] at h
  obtain ⟨start, hstart, hrest⟩ := h.split
  obtain ⟨stop, hkept, hstop⟩ := hrest.split
  obtain rfl := hstart.of_blanks trivial hbefore
  obtain rfl := hstop.of_blanks (hkept.proper trivial) hafter
  exact hkept

end Passes

/-! ## Lines -/

/-- The line of an operation without details is the operation; else a colon and a blank stand between. -/
theorem toList_joinLine (op details : List Char) :
    (Node.joinLine (String.ofList op) (String.ofList details)).toList =
      if details = [] then op else op ++ ':' :: ' ' :: details := by
  cases details <;> simp [Node.joinLine]

/-- What a text is split into is what the line joined from the two is split into. -/
theorem splitOperation_joinLine (text : List Char) :
    splitOperation (Node.joinLine (String.ofList (splitOperation text).1) (String.ofList (splitOperation text).2)).toList =
      splitOperation text := by
  rw [toList_joinLine]
  rcases passes_or_cut (.plain 0) text with ⟨zone, h⟩ | ⟨op, details, rfl, h⟩
  · rw [splitOperation_whole h, if_pos rfl, splitOperation_whole h.trim, Text.trim_trim]
  · rw [splitOperation_colon h]
    split_ifs with hnone
    · rw [splitOperation_whole h.trim, Text.trim_trim, ← hnone]
    · rw [splitOperation_colon h.trim, Text.trim_trim, Text.trim_blank_cons rfl, Text.trim_trim]

/-- The line of a node reads back as its operation and its details, if these have been read from a text, whatever text that is.
So does the line of every row. -/
theorem lineText_reads_back {α : Type} [Quantity α] :
    (∀ (text : List Char) (n : Node α),
      let cut := splitOperation text
      splitOperation { n with operation := String.ofList cut.1, details := String.ofList cut.2 }.lineText.toList = cut) ∧
    ∀ (config : ParserConfig) (line : List Char) (number : Nat),
      let row := ofLine config line number
      splitOperation (row.toNode : Node α).lineText.toList = (row.operation.toList, row.details.toList) := by
  refine ⟨fun text n => splitOperation_joinLine text, fun config line number => ?_⟩
  intro row
  have hline : (row.toNode : Node α).lineText = Node.joinLine row.operation row.details := rfl
  rw [hline]
  simp only [row, ofLine, String.toList_ofList]
  exact splitOperation_joinLine (measureIndent ((gridRow? line).getD (none, line)).2 config.indentWidth).2

end Row

end DaxPlan
