import DaxPlan.Row
import Mathlib.Data.List.Basic

/-!
# Operations and where they end

A line is scanned for a colon to cut it at, and a scan knows no more of what it has gone through than the zone it has come to. So
texts that are gone through one after the other are gone through together (`Passes.append`), and a line is cut behind a text that
leads from the open back to the open, if a colon follows (`splitOperation_colon`). Quotations, square brackets and groups are such
texts, whatever colons they hold, and so is a text made of them (`OperationText.passes`).
-/

namespace DaxPlan.Row

variable {zone zone' zone'' : Zone} {c q : Char} {s u rest inner : List Char} {depth : Nat}

/-! ## Scans -/

/-- A colon in the open, outside all brackets. -/
def Zone.CutsAt (zone : Zone) (c : Char) : Prop := zone = .plain 0 ∧ c = ':'

/-- A scan goes through a text, from a zone to another, without coming to a colon to cut at. -/
inductive Passes : Zone → List Char → Zone → Prop where
  | done (zone : Zone) : Passes zone [] zone
  | step {zone next zone' : Zone} {c : Char} {rest : List Char} :
      ¬zone.CutsAt c → zone.step c = next → Passes next rest zone' → Passes zone (c :: rest) zone'

namespace Passes

/-- A scan goes through one text and then through the other. -/
theorem append (h : Passes zone s zone') (h' : Passes zone' u zone'') : Passes zone (s ++ u) zone'' := by
  induction h with
  | done => exact h'
  | step hc hnext _ ih => exact step hc hnext (ih h')

/-- A scan goes through one character. -/
theorem single (hc : ¬zone.CutsAt c) (hstep : zone.step c = zone') : Passes zone [c] zone' :=
  step hc hstep (done zone')

/-- A text between two characters of which one leads into a zone and the other one back. -/
theorem enclose {opening closing : Char} (h : Passes zone' inner zone') (ho : opening ≠ ':')
    (hopen : zone.step opening = zone') (hc : closing ≠ ':') (hclose : zone'.step closing = zone) :
    Passes zone (opening :: inner ++ [closing]) zone :=
  step (fun hcut => ho hcut.2) hopen (h.append (single (fun hcut => hc hcut.2) hclose))

/-- Behind a text that has been gone through the scan goes on from the zone it has come to. -/
theorem cutAtColon_append (h : Passes zone s zone') (rest : List Char) :
    cutAtColon zone (s ++ rest) = (cutAtColon zone' rest).map (fun cut => (s ++ cut.1, cut.2)) := by
  induction h with
  | done => simp
  | @step zone next zone' c s hc hnext _ ih =>
    have hnot : ¬(zone == .plain 0 && c == ':') = true := by simpa [Zone.CutsAt] using hc
    rw [List.cons_append, cutAtColon, if_neg hnot, hnext, ih, Option.map_map]
    rfl

/-- Where a scan goes through there is no colon to cut at. -/
theorem cutAtColon_eq_none (h : Passes zone s zone') : cutAtColon zone s = none := by
  have hnone := h.cutAtColon_append []
  rwa [List.append_nil, cutAtColon, Option.map_none] at hnone

/-- A text is cut at the first colon that a scan comes to in the open. -/
theorem cutAtColon_colon (h : Passes zone s (.plain 0)) (rest : List Char) :
    cutAtColon zone (s ++ ':' :: rest) = some (s, rest) := by
  simp [h.cutAtColon_append, cutAtColon]

end Passes

/-- A scan goes through a text to its end, or to a colon to cut at. -/
theorem passes_or_cut (zone : Zone) (s : List Char) :
    (∃ zone', Passes zone s zone') ∨ ∃ before after, s = before ++ ':' :: after ∧ Passes zone before (.plain 0) := by
  induction s generalizing zone with
  | nil => exact Or.inl ⟨zone, .done zone⟩
  | cons c s ih =>
    by_cases hc : zone.CutsAt c
    · obtain ⟨rfl, rfl⟩ := hc
      exact Or.inr ⟨[], s, rfl, .done _⟩
    · rcases ih (zone.step c) with ⟨zone', h⟩ | ⟨before, after, rfl, h⟩
      · exact Or.inl ⟨zone', .step hc rfl h⟩
      · exact Or.inr ⟨c :: before, after, rfl, .step hc rfl h⟩

/-- A line that a scan goes through is an operation without details. -/
theorem splitOperation_whole (h : Passes (.plain 0) s zone) : splitOperation s = (Text.trim s, []) := by
  rw [splitOperation, h.cutAtColon_eq_none]

/-- A line is split at the first colon that a scan comes to in the open. -/
theorem splitOperation_colon (h : Passes (.plain 0) s (.plain 0)) (rest : List Char) :
    splitOperation (s ++ ':' :: rest) = (Text.trim s, Text.trim rest) := by
  rw [splitOperation, h.cutAtColon_colon]

/-! ## Quotations and brackets -/

/-- Quotes, brackets and the colon. -/
def marks : List Char := ['\'', '"', '[', ']', '(', ')', '{', '}', '<', '>', ':']

/-- A character that means nothing to a scan. -/
def isPlain (c : Char) : Bool := !marks.contains c

/-- A character that means nothing leaves a scan in the open. -/
theorem Zone.step_plain (hc : isPlain c = true) (depth : Nat) : (Zone.plain depth).step c = .plain depth := by
  simp only [isPlain, marks, Bool.not_eq_true', List.contains_eq_mem, decide_eq_false_iff_not, List.mem_cons, not_or] at hc
  simp [Zone.step, hc]

/-- A scan in the open goes through a character that means nothing. -/
theorem passes_plain (hc : isPlain c = true) (depth : Nat) : Passes (.plain depth) [c] (.plain depth) :=
  .single (fun hcut => absurd (hcut.2 ▸ hc) (by decide)) (Zone.step_plain hc depth)

/-- A quotation ends with the next quote of its kind. -/
theorem passes_quotation (hq : q = '\'' ∨ q = '"') (hinner : q ∉ inner) (depth : Nat) :
    Passes (.plain depth) (q :: inner ++ [q]) (.plain depth) := by
  have hcolon : q ≠ ':' := by rcases hq with rfl | rfl <;> decide
  have hwithin : Passes (.quoted q depth) inner (.quoted q depth) := by
    induction inner with
    | nil => exact .done _
    | cons c inner ih =>
      rw [List.mem_cons, not_or] at hinner
      have hstay : (Zone.quoted q depth).step c = .quoted q depth := by simp [Zone.step, Ne.symm hinner.1]
      exact .step (fun hcut => nomatch hcut.1) hstay (ih hinner.2)
  exact hwithin.enclose hcolon (by rcases hq with rfl | rfl <;> rfl) hcolon (by simp [Zone.step])

/-- What stands between square brackets: any text whose own square brackets match. -/
inductive Squared : List Char → Prop where
  | nil : Squared []
  | char {c : Char} {rest : List Char} : c ≠ '[' → c ≠ ']' → Squared rest → Squared (c :: rest)
  | nest {inner rest : List Char} : Squared inner → Squared rest → Squared ('[' :: inner ++ ']' :: rest)

/-- A text without square brackets may stand before any other in them. -/
theorem Squared.text (hopen : '[' ∉ s) (hclose : ']' ∉ s) (h : Squared rest) : Squared (s ++ rest) := by
  induction s with
  | nil => exact h
  | cons c s ih =>
    rw [List.mem_cons, not_or] at hopen hclose
    exact .char (Ne.symm hopen.1) (Ne.symm hclose.1) (ih hopen.2 hclose.2)

/-- A scan in square brackets comes out of their inside where it went in. -/
theorem Squared.passes (h : Squared s) (nesting depth : Nat) :
    Passes (.square nesting depth) s (.square nesting depth) := by
  induction h generalizing nesting with
  | nil => exact .done _
  | @char c rest hopen hclose _ ih =>
    have hstay : (Zone.square nesting depth).step c = .square nesting depth := by simp [Zone.step, hopen, hclose]
    exact .step (fun hcut => nomatch hcut.1) hstay (ih nesting)
  | nest _ _ ihinner ihrest =>
    rw [List.append_cons]
    refine Passes.append ?_ (ihrest nesting)
    exact (ihinner (nesting + 1)).enclose (by decide) rfl (by decide) rfl

/-! ## Operation texts -/

/-- The brackets that make groups, and what closes them. -/
inductive Grouping : Char → Char → Prop where
  | parentheses : Grouping '(' ')'
  | braces : Grouping '{' '}'
  | angles : Grouping '<' '>'

/-- A scan comes out of a pair of brackets where it went in, if it goes through their inside. -/
theorem Grouping.passes {opening closing : Char} (h : Grouping opening closing)
    (hinner : Passes (.plain (depth + 1)) inner (.plain (depth + 1))) :
    Passes (.plain depth) (opening :: inner ++ [closing]) (.plain depth) := by
  cases h <;> exact hinner.enclose (by decide) rfl (by decide) rfl

/-- A text of plain characters, quotations, square brackets, and groups that hold such a text again. Inside a group colons are
allowed; outside, closing brackets that close nothing. -/
inductive OperationText : Bool → List Char → Prop where
  | nil {inside : Bool} : OperationText inside []
  | plain {inside : Bool} {c : Char} {rest : List Char} :
      isPlain c = true → OperationText inside rest → OperationText inside (c :: rest)
  | colon {rest : List Char} : OperationText true rest → OperationText true (':' :: rest)
  | closing {opening closing : Char} {rest : List Char} :
      Grouping opening closing → OperationText false rest → OperationText false (closing :: rest)
  | quotation {inside : Bool} {q : Char} {inner rest : List Char} :
      q = '\'' ∨ q = '"' → q ∉ inner → OperationText inside rest → OperationText inside (q :: inner ++ q :: rest)
  | square {inside : Bool} {inner rest : List Char} :
      Squared inner → OperationText inside rest → OperationText inside ('[' :: inner ++ ']' :: rest)
  | group {inside : Bool} {opening closing : Char} {inner rest : List Char} :
      Grouping opening closing → OperationText true inner → OperationText inside rest →
      OperationText inside (opening :: inner ++ closing :: rest)

/-- A text that means nothing may stand before any other. -/
theorem OperationText.text {inside : Bool} (hs : s.all isPlain = true) (h : OperationText inside rest) :
    OperationText inside (s ++ rest) := by
  induction s with
  | nil => exact h
  | cons c s ih =>
    rw [List.all_cons, Bool.and_eq_true] at hs
    exact .plain hs.1 (ih hs.2)

/-- A scan goes through an operation text and is as deep in brackets afterwards as before. -/
theorem OperationText.passes {inside : Bool} (h : OperationText inside s) (hdepth : inside = true ↔ 0 < depth) :
    Passes (.plain depth) s (.plain depth) := by
  induction h generalizing depth with
  | nil => exact .done _
  | plain hc _ ih => exact (passes_plain hc depth).append (ih hdepth)
  | colon _ ih =>
    have hinside : Passes (.plain depth) [':'] (.plain depth) := by
      refine .single (fun hcut => ?_) rfl
      have hzero := Zone.plain.inj hcut.1
      exact absurd (hdepth.mp rfl) (by omega)
    exact hinside.append (ih hdepth)
  | @closing opening closing rest hgroup _ ih =>
    have hzero : depth = 0 := Nat.eq_zero_of_not_pos (fun hpos => Bool.false_ne_true (hdepth.mpr hpos))
    subst hzero
    have hnothing : Passes (.plain 0) [closing] (.plain 0) := by
      cases hgroup <;> exact .single (fun hcut => absurd hcut.2 (by decide)) rfl
    exact hnothing.append (ih hdepth)
  | quotation hq hinner _ ih =>
    rw [List.append_cons]
    exact (passes_quotation hq hinner depth).append (ih hdepth)
  | square hinner _ ih =>
    rw [List.append_cons]
    refine Passes.append ?_ (ih hdepth)
    exact (hinner.passes 0 depth).enclose (by decide) rfl (by decide) rfl
  | group hgroup _ _ ihinner ihrest =>
    rw [List.append_cons]
    exact (hgroup.passes (ihinner (by simp))).append (ihrest hdepth)

/-- A line is cut behind an operation text that a colon follows, whatever comes then; an operation text alone has no details. -/
theorem splitOperation_operationText (h : OperationText false s) (details : List Char) :
    splitOperation (s ++ ':' :: details) = (Text.trim s, Text.trim details) ∧ splitOperation s = (Text.trim s, []) := by
  have hpasses : Passes (.plain 0) s (.plain 0) := h.passes (by simp)
  exact ⟨splitOperation_colon hpasses details, splitOperation_whole hpasses⟩

/-- A group with a colon in it, a quoted name with a colon, and square brackets with an apostrophe and brackets of their own. -/
theorem splitOperation_operationText_column :
    splitOperation "Copy<By: 'Sales: East'[Owner's [Key]: Id]>: LogOp=Scan".toList =
      ("Copy<By: 'Sales: East'[Owner's [Key]: Id]>".toList, "LogOp=Scan".toList) := by
  have hkey : Squared ("Owner's ".toList ++ ('[' :: ("Key".toList ++ []) ++ ']' :: (": Id".toList ++ []))) :=
    .text (by decide) (by decide) (.nest (.text (by decide) (by decide) .nil) (.text (by decide) (by decide) .nil))
  have hcolumn : OperationText true (" ".toList ++ ('\'' :: "Sales: East".toList ++ '\'' :: ('[' :: _ ++ ']' :: []))) :=
    .text (by decide) (.quotation (Or.inl rfl) (by decide) (.square hkey .nil))
  have hcopy : OperationText false ("Copy".toList ++ ('<' :: ("By".toList ++ ':' :: _) ++ '>' :: [])) :=
    .text (by decide) (.group .angles (.text (by decide) (.colon hcolumn)) .nil)
  have hcut := (splitOperation_operationText hcopy " LogOp=Scan".toList).1
  refine hcut.trans ?_
  decide +kernel

end DaxPlan.Row
