import DaxPlan.Proofs.Text.Occurrence
import DaxPlan.Proofs.Text.QuotedName
import DaxPlan.Query
import Mathlib.Data.List.Induction

/-!
# References read back

A reference is written as the table's name between apostrophes, its own apostrophes doubled, and the column's name in brackets
behind it. A scan that has come to the opening apostrophe of a reference reads that one and goes on behind its closing bracket
(`Reference.read`), so apostrophes in a column mean nothing to it; and between references it finds nothing where there is no
apostrophe. So a text yields the references it is written with, each table and each column in its first spelling
(`references_read_back`).
-/

namespace DaxPlan.Query

/-! ## The first quoted name -/

section Quoted

variable {c : Char} {s p name rest : List Char}

/-- The first quoted name of a text, as written. -/
def quoted? (text : List Char) : Option (List Char) :=
  Text.firstOccurrence? (fun s => (Text.name? s).map (fun cut => (cut.1, 0))) text

theorem firstTable?_eq (text : List Char) : firstTable? text = (quoted? text).map Text.undoubleApostrophes := rfl

theorem quoted?_found (h : Text.name? (c :: s) = some (name, rest)) : quoted? (c :: s) = some name := by
  rw [quoted?, Text.firstOccurrence?, h]
  rfl

theorem quoted?_skip (h : Text.name? (c :: s) = none) : quoted? (c :: s) = quoted? s := by
  rw [quoted?, Text.firstOccurrence?, h]
  rfl

/-- No quoted name starts where there is no apostrophe. -/
theorem quoted?_append (h : '\'' ∉ p) (s : List Char) : quoted? (p ++ s) = quoted? s := by
  induction p with
  | nil => rfl
  | cons c p ih =>
    obtain ⟨hc, hp⟩ := List.ne_and_not_mem_of_not_mem_cons h
    rw [List.cons_append, quoted?_skip (Text.name?_of_ne (Ne.symm hc) _), ih hp]

end Quoted

/-! ## References as written -/

/-- A reference as it is written: a table, blanks, and a column. Both have a name, and a column's name has no closing bracket. -/
structure Reference where
  table : List Char
  blanks : List Char
  column : List Char
  table_ne : table ≠ []
  blank : ∀ c ∈ blanks, Text.isBlank c = true
  column_ne : column ≠ []
  unclosed : ']' ∉ column

namespace Reference

/-- The text of a reference. -/
def text (r : Reference) : List Char := Text.quoteName r.table ++ (r.blanks ++ '[' :: (r.column ++ [']']))

/-- The column as it is reported, with its table. -/
def qualified (r : Reference) : List Char := qualifiedName r.table (Text.trim r.column)

variable (r : Reference) (rest : List Char)

theorem text_append : r.text ++ rest = Text.quoteName r.table ++ (r.blanks ++ '[' :: (r.column ++ ']' :: rest)) := by
  simp [text]

/-- Behind the table's name stands a blank or a bracket. -/
theorem closes : (r.blanks ++ '[' :: (r.column ++ ']' :: rest)).head? ≠ some '\'' := by
  cases hblanks : r.blanks with
  | nil => exact nofun
  | cons c blanks =>
    have hc : Text.isBlank c = true := r.blank c (hblanks ▸ List.mem_cons_self)
    rintro ⟨⟩
    cases hc

/-- At a reference that one is read, with all its characters. -/
theorem read : reference? (r.text ++ rest) = some ((Text.doubleApostrophes r.table, r.column), r.text.length) := by
  have hblanks : Text.leadingBlanks (r.blanks ++ '[' :: (r.column ++ ']' :: rest)) = r.blanks.length := by
    rw [Text.leadingBlanks, List.takeWhile_append_of_pos r.blank]
    simp [show Text.isBlank '[' = false from rfl]
  have hlength : r.text.length =
      Text.markedLength (Text.doubleApostrophes r.table) + r.blanks.length + Text.markedLength r.column := by
    simp only [text, Text.quoteName, Text.markedLength, List.length_append, List.length_cons, List.length_nil]
    omega
  rw [text_append, reference?, Text.closedName?_quoteName r.table_ne (r.closes rest), hlength]
  simp only [Option.bind_eq_bind, Option.bind_some, hblanks, List.drop_left,
    Text.bracketed?_append r.column_ne r.unclosed rest]
  rfl

theorem text_ne_nil : r.text ≠ [] := by
  simp [text, Text.quoteName]

/-- The first quoted name of a text that starts with a reference is its table. -/
theorem firstTable?_append : firstTable? (r.text ++ rest) = some r.table := by
  have hname := Text.name?_eq_some (Text.doubleApostrophes_ne_nil r.table_ne) (Text.Paired.double r.table)
    (Or.inl (r.closes rest))
  rw [text_append, Text.quoteName_append, firstTable?_eq, quoted?_found hname, Option.map_some, Text.undouble_double]

end Reference

/-- A text with references: each with what stands in front of it, and what stands behind the last one. -/
def written (references : List (List Char × Reference)) (behind : List Char) : List Char :=
  references.flatMap (fun r => r.1 ++ r.2.text) ++ behind

theorem written_cons (r : List Char × Reference) (references : List (List Char × Reference)) (behind : List Char) :
    written (r :: references) behind = r.1 ++ (r.2.text ++ written references behind) := by
  simp [written]

/-! ## References read -/

theorem reference?_eq_none {c : Char} (h : c ≠ '\'') (s : List Char) : reference? (c :: s) = none := by
  have hname : Text.closedName? (c :: s) = none := by
    unfold Text.closedName?
    split
    · rename_i heq
      exact absurd (List.cons.inj heq).1 h
    · rfl
  rw [reference?, hname]
  rfl

/-- No reference starts where there is no apostrophe. -/
theorem occurrences_between {p : List Char} (h : '\'' ∉ p) (s : List Char) :
    Text.occurrences reference? (p ++ s) = Text.occurrences reference? s :=
  Text.occurrences_append_left (fun _ hc s => reference?_eq_none (fun he => h (he ▸ hc)) s) s

theorem references_written {references : List (List Char × Reference)} {behind : List Char}
    (hbetween : ∀ r ∈ references, '\'' ∉ r.1) (hbehind : '\'' ∉ behind) :
    Query.references (written references behind) = references.map (fun r => (r.2.table, Text.trim r.2.column)) := by
  have hfound : Text.occurrences reference? (written references behind) =
      references.map (fun r => (Text.doubleApostrophes r.2.table, r.2.column)) := by
    induction references with
    | nil =>
      rw [written, List.flatMap_nil, List.nil_append, ← List.append_nil behind, occurrences_between hbehind]
      rfl
    | cons r references ih =>
      obtain ⟨hr, hrest⟩ := List.forall_mem_cons.mp hbetween
      rw [written_cons, occurrences_between hr, Text.occurrences_found r.2.text_ne_nil (r.2.read _), ih hrest, List.map_cons]
  rw [Query.references, hfound, List.map_map]
  exact List.map_congr_left (fun r _ => by rw [Function.comp_apply, Text.undouble_double])

/-! ## First spellings -/

/-- The names that no name in front of them equals but for case, in order. -/
def firstSpellings (names : List (List Char)) : List (List Char) :=
  (names.zipIdx.filter (fun n => (names.take n.2).all (fun m => Text.lower m != Text.lower n.1))).map Prod.fst

theorem firstSpellings_snoc (names : List (List Char)) (name : List Char) :
    firstSpellings (names ++ [name]) =
      if Text.lower name ∈ names.map Text.lower then firstSpellings names else firstSpellings names ++ [name] := by
  have hbefore : names.zipIdx.filter (fun n => ((names ++ [name]).take n.2).all (fun m => Text.lower m != Text.lower n.1)) =
      names.zipIdx.filter (fun n => (names.take n.2).all (fun m => Text.lower m != Text.lower n.1)) := by
    refine List.filter_congr (fun n hn => ?_)
    have hlt : n.2 < 0 + names.length := List.snd_lt_add_of_mem_zipIdx hn
    rw [List.take_append_of_le_length (by omega)]
  rw [firstSpellings, List.zipIdx_append, List.filter_append, hbefore, List.map_append, firstSpellings]
  simp only [List.zipIdx_cons, List.zipIdx_nil, Nat.zero_add, List.filter_cons, List.filter_nil, List.take_left]
  by_cases hname : Text.lower name ∈ names.map Text.lower
  · obtain ⟨m, hm, hlower⟩ := List.mem_map.mp hname
    have hall : names.all (fun m => Text.lower m != Text.lower name) = false :=
      List.all_eq_false.mpr ⟨m, hm, by simp [hlower]⟩
    simp [hname, hall]
  · have hall : names.all (fun m => Text.lower m != Text.lower name) = true :=
      List.all_eq_true.mpr (fun m hm => bne_iff_ne.mpr (fun he => hname (he ▸ List.mem_map_of_mem hm)))
    simp [hname, hall]

/-- Names are dropped that equal an earlier one but for case: the keys of those that came before are kept beside the names. -/
theorem distinctNames_eq (names : List (List Char)) : distinctNames names = firstSpellings names := by
  have hstate : ∀ names : List (List Char),
      let seen := names.foldl (fun (seen : List (List Char) × List (List Char)) name =>
        let key := Text.lower name
        if seen.1.contains key then seen else (key :: seen.1, name :: seen.2)) ([], [])
      (∀ key, key ∈ seen.1 ↔ key ∈ names.map Text.lower) ∧ seen.2.reverse = firstSpellings names := by
    intro names
    induction names using List.reverseRecOn with
    | nil => exact ⟨fun _ => Iff.rfl, rfl⟩
    | append_singleton names name ih =>
      obtain ⟨hkeys, hnames⟩ := ih
      rw [List.foldl_append, firstSpellings_snoc]
      dsimp only [List.foldl_cons, List.foldl_nil]
      by_cases hname : Text.lower name ∈ names.map Text.lower
      · rw [if_pos hname, if_pos (by rw [List.contains_iff_mem, hkeys]; exact hname)]
        refine ⟨fun key => ?_, hnames⟩
        rw [hkeys, List.map_append, List.mem_append]
        exact ⟨Or.inl, fun h => h.elim id (fun h => (List.mem_singleton.mp h) ▸ hname)⟩
      · rw [if_neg hname, if_neg (by rw [List.contains_iff_mem, hkeys]; exact hname)]
        refine ⟨fun key => ?_, by rw [List.reverse_cons, hnames]⟩
        rw [List.mem_cons, hkeys, List.map_append, List.mem_append, List.map_singleton, List.mem_singleton, or_comm]
  exact (hstate names).2

/-! ## What is extracted -/

/-- The tables and the columns of a text are those of the references it is written with, each in its first spelling and in the
order of these, and the first table of the text is the one of the first reference. Between references, in front of them and
behind them may stand what has no apostrophe. -/
theorem references_read_back (references : List (List Char × Reference)) (behind : List Char)
    (hbetween : ∀ r ∈ references, '\'' ∉ r.1) (hbehind : '\'' ∉ behind) :
    let text := written references behind
    tablesOf text = firstSpellings (references.map (fun r => r.2.table)) ∧
      columnsOf text = firstSpellings (references.map (fun r => r.2.qualified)) ∧
      firstTable? text = references.head?.map (fun r => r.2.table) := by
  intro text
  have hreferences : Query.references text = references.map (fun r => (r.2.table, Text.trim r.2.column)) :=
    references_written hbetween hbehind
  refine ⟨?_, ?_, ?_⟩
  · rw [tablesOf, hreferences, List.map_map, distinctNames_eq]
    rfl
  · rw [columnsOf, hreferences, List.map_map, distinctNames_eq]
    rfl
  · cases references with
    | nil =>
      have hnone : quoted? behind = none := by
        rw [← List.append_nil behind, quoted?_append hbehind]
        rfl
      exact congrArg (Option.map Text.undoubleApostrophes) hnone
    | cons r references =>
      have hr : '\'' ∉ r.1 := hbetween r List.mem_cons_self
      rw [firstTable?_eq, show text = _ from written_cons r references behind, quoted?_append hr, ← firstTable?_eq]
      exact r.2.firstTable?_append _

/-- A table whose name starts and ends with an apostrophe and has two in a row, a column with an apostrophe and an opening bracket,
and another table and column that come twice, in two spellings. -/
theorem references_read_back_apostrophes :
    let quoted : Reference :=
      ⟨"'O''Brien'".toList, ['\t', ' '], " Paid'[x ".toList, by decide, List.all_eq_true.mp (by decide), by decide, by decide⟩
    let first : Reference :=
      ⟨"Sales".toList, [], "Amount".toList, by decide, List.all_eq_true.mp (by decide), by decide, by decide⟩
    let again : Reference :=
      ⟨"SALES".toList, [' '], "amount ".toList, by decide, List.all_eq_true.mp (by decide), by decide, by decide⟩
    let references := [([], quoted), (", [".toList, first), (" ".toList, again)]
    let text := "'''O''''Brien'''\t [ Paid'[x ], ['Sales'[Amount] 'SALES' [amount ])".toList
    (∀ r ∈ references, '\'' ∉ r.1) ∧ '\'' ∉ [')'] ∧ written references [')'] = text ∧
      tablesOf text = ["'O''Brien'".toList, "Sales".toList] ∧
      columnsOf text = ["''O''Brien''[Paid'[x]".toList, "'Sales'[Amount]".toList] ∧
      firstTable? text = some "'O''Brien'".toList := by
  intro quoted first again references text
  have hbetween : ∀ r ∈ references, '\'' ∉ r.1 := by decide
  have hbehind : '\'' ∉ [')'] := by decide
  have htext : written references [')'] = text := by decide
  obtain ⟨htables, hcolumns, hfirst⟩ := references_read_back references [')'] hbetween hbehind
  rw [htext] at htables hcolumns hfirst
  refine ⟨hbetween, hbehind, htext, htables.trans ?_, hcolumns.trans ?_, hfirst⟩
  · decide +kernel
  · decide +kernel

end DaxPlan.Query
