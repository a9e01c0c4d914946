import DaxPlan.Proofs.Outline.TextualOrder
import DaxPlan.Proofs.Strict.Access

/-!
# Reading a plan text, strictly

The scans of a line cut it at byte offsets, which must lie between two characters. Adding a row looks at the part of the branch
above the level of its parent and attaches the row to a node; closing attaches the top-level rows to a new node; levels are read
off parents. None of that ever fails, however a text is indented (`ofText_eq`): a scan cuts where it has come to, the branch is
asked for no more than it has, and it remembers rows that are there.
-/

namespace DaxPlan.Strict

open DaxPlan.Tree

variable {α : Type}

/-! ## Lines -/

/-- The length of a text in bytes. -/
def byteLength (s : List Char) : Nat := Number.total (s.map Char.utf8Size)

/-- Cuts a text at a byte offset between two characters. -/
def cutAt : List Char → Nat → Option (List Char × List Char)
  | s, 0 => some ([], s)
  | [], _ + 1 => none
  | c :: s, offset + 1 =>
    if c.utf8Size ≤ offset + 1 then (cutAt s (offset + 1 - c.utf8Size)).map (fun cut => (c :: cut.1, cut.2)) else none

/-- Divides by a number that is not zero. -/
def quotient (a b : Nat) : Option Nat := if b == 0 then none else some (a / b)

/-- Goes on with measuring the indentation of a line, from an offset on and with the columns counted so far. -/
def measureFrom (line : List Char) (width : Nat) : Nat → Nat → List Char → Option (Nat × List Char)
  | _, columns, [] => (quotient columns width).map (fun level => (level, []))
  | offset, columns, c :: rest =>
    if c == '\t' then measureFrom line width (offset + c.utf8Size) (Number.addWord columns width) rest
    else if Text.isBlank c then measureFrom line width (offset + c.utf8Size) (Number.addWord columns 1) rest
    else do
      let level ← quotient columns width
      let cut ← cutAt line offset
      return (level, Text.trimEnd cut.2)

/-- The level of a line and its content. -/
def measureIndent (line : List Char) (indentWidth : Nat) : Option (Nat × List Char) :=
  measureFrom line (max indentWidth 1) 0 0 line

/-- Goes on with looking for the colon to cut a line at, from an offset on. -/
def splitFrom (text : List Char) : Nat → Row.Zone → List Char → Option (List Char × List Char)
  | _, _, [] => some (Text.trim text, [])
  | offset, zone, c :: rest =>
    if zone == .plain 0 && c == ':' then do
      let before ← cutAt text offset
      let behind ← cutAt text (offset + 1)
      return (Text.trim before.1, Text.trim behind.2)
    else splitFrom text (offset + c.utf8Size) (zone.step c) rest

/-- Cuts a line at its colon. -/
def splitOperation (text : List Char) : Option (List Char × List Char) := splitFrom text 0 (.plain 0) text

/-- The name an operator token carries, cut off where its template arguments start. -/
def baseName (token : List Char) : Option (List Char) :=
  let trimmed := Text.trim token
  if trimmed.contains '<' then
    (cutAt trimmed (byteLength (trimmed.takeWhile (· != '<')))).map (fun cut => Text.trimEnd cut.1)
  else some trimmed

/-- Reads a line. -/
def ofLine (config : ParserConfig) (line : List Char) (number : Nat) : Option Row := do
  let grid := (Row.gridRow? line).getD (none, line)
  let measured ← measureIndent grid.2 config.indentWidth
  let cut ← splitOperation measured.2
  let tokens := Row.tokens cut.2
  let name ← baseName cut.1
  return { number
           indentLevel := measured.1
           operation := String.ofList cut.1
           details := String.ofList cut.2
           operator := Operator.ofBaseName name
           recordCount := grid.1.orElse (fun _ => tokens.findSome? (Row.Token.records? config.recordCountKeys))
           logicalOp := Row.logicalOpOf tokens }

/-- Reads the rows of a text. -/
def rowsOfText (config : ParserConfig) (text : String) : Option (List Row) :=
  (Row.planLines text.toList).zipIdx.mapM (fun line => ofLine config line.1 (line.2 + 1))

/-- The length of a text adds up from its characters. -/
theorem byteLength_cons (c : Char) (s : List Char) : byteLength (c :: s) = c.utf8Size + byteLength s := rfl

/-- The length of a text adds up from its last character too. -/
theorem byteLength_snoc (s : List Char) (c : Char) : byteLength (s ++ [c]) = byteLength s + c.utf8Size := by
  rw [byteLength, List.map_append, Number.total_append]
  rfl

/-- A text can be cut behind any of its beginnings. -/
theorem cutAt_append (a b : List Char) : cutAt (a ++ b) (byteLength a) = some (a, b) := by
  induction a with
  | nil => cases b <;> rfl
  | cons c a ih =>
    have hpos := c.utf8Size_pos
    obtain ⟨offset, hoffset⟩ : ∃ offset, byteLength (c :: a) = offset + 1 :=
      ⟨byteLength (c :: a) - 1, by rw [byteLength_cons]; omega⟩
    have hrest : offset + 1 - c.utf8Size = byteLength a := by rw [← hoffset, byteLength_cons]; omega
    rw [List.cons_append, hoffset, cutAt, if_pos (by rw [← hoffset, byteLength_cons]; omega), hrest, ih]
    rfl

/-- A width is never zero. -/
theorem quotient_eq {a b : Nat} (h : 1 ≤ b) : quotient a b = some (a / b) :=
  if_neg (by simp; omega)

/-- Measuring goes on with the columns of the blanks that are left. -/
theorem measureFrom_eq {width : Nat} (hwidth : 1 ≤ width) (before rest : List Char) (columns : Nat) :
    measureFrom (before ++ rest) width (byteLength before) columns rest =
      some ((rest.takeWhile Text.isBlank).foldl (Row.addColumns width) columns / width,
        Text.trimEnd (rest.dropWhile Text.isBlank)) := by
  induction rest generalizing before columns with
  | nil =>
    rw [measureFrom, quotient_eq hwidth]
    rfl
  | cons c rest ih =>
    have hnext := fun columns => ih (before ++ [c]) columns
    simp only [byteLength_snoc, List.append_assoc, List.singleton_append] at hnext
    rw [measureFrom]
    by_cases htab : c == '\t'
    · have hblank : Text.isBlank c = true := by rw [eq_of_beq htab]; decide
      rw [if_pos htab, hnext, List.takeWhile_cons_of_pos hblank, List.dropWhile_cons_of_pos hblank, List.foldl_cons,
        Row.addColumns, if_pos htab]
    · rw [if_neg htab]
      by_cases hblank : Text.isBlank c = true
      · rw [if_pos hblank, hnext, List.takeWhile_cons_of_pos hblank, List.dropWhile_cons_of_pos hblank, List.foldl_cons,
          Row.addColumns, if_neg htab]
      · rw [if_neg hblank, then_eq (quotient_eq hwidth), then_eq (cutAt_append before (c :: rest)),
          List.takeWhile_cons_of_neg hblank, List.dropWhile_cons_of_neg hblank]
        rfl

/-- Measuring never fails. -/
theorem measureIndent_eq (line : List Char) (indentWidth : Nat) :
    measureIndent line indentWidth = some (Row.measureIndent line indentWidth) :=
  measureFrom_eq (Nat.le_max_right indentWidth 1) [] line 0

/-- Looking for the colon goes on up to where the line is cut. -/
theorem splitFrom_eq (before rest : List Char) (zone : Row.Zone) :
    splitFrom (before ++ rest) (byteLength before) zone rest =
      some (match Row.cutAtColon zone rest with
        | some (operation, details) => (Text.trim (before ++ operation), Text.trim details)
        | none => (Text.trim (before ++ rest), [])) := by
  induction rest generalizing before zone with
  | nil => rfl
  | cons c rest ih =>
    have hnext := ih (before ++ [c]) (zone.step c)
    rw [byteLength_snoc, List.append_assoc, List.singleton_append] at hnext
    rw [splitFrom, Row.cutAtColon]
    by_cases hcolon : (zone == .plain 0 && c == ':') = true
    · have hbehind := cutAt_append (before ++ [c]) rest
      have hsize : c.utf8Size = 1 := by rw [eq_of_beq (Bool.and_eq_true_iff.mp hcolon).2]; rfl
      rw [byteLength_snoc, hsize, List.append_assoc, List.singleton_append] at hbehind
      rw [if_pos hcolon, if_pos hcolon, then_eq (cutAt_append before (c :: rest)), then_eq hbehind]
      simp
    · rw [if_neg hcolon, if_neg hcolon, hnext]
      cases Row.cutAtColon (zone.step c) rest <;> simp

/-- Cutting a line at its colon never fails. -/
theorem splitOperation_eq (text : List Char) : splitOperation text = some (Row.splitOperation text) := by
  have h := splitFrom_eq [] text (.plain 0)
  rw [List.nil_append] at h
  refine h.trans (congrArg some ?_)
  unfold Row.splitOperation
  cases Row.cutAtColon (.plain 0) text <;> rfl

/-- A token is cut where its arguments start. -/
theorem baseName_eq (token : List Char) : baseName token = some (Operator.baseName token) := by
  unfold baseName Operator.baseName
  dsimp only
  split
  · have hcut := cutAt_append ((Text.trim token).takeWhile (· != '<')) ((Text.trim token).dropWhile (· != '<'))
    rw [List.takeWhile_append_dropWhile] at hcut
    rw [hcut]
    rfl
  · rfl

/-- Every line is read. -/
theorem ofLine_eq (config : ParserConfig) (line : List Char) (number : Nat) :
    ofLine config line number = some (Row.ofLine config line number) := by
  unfold ofLine
  dsimp only
  rw [then_eq (measureIndent_eq _ _), then_eq (splitOperation_eq _), then_eq (baseName_eq _)]
  rfl

/-- The rows of every text are read. -/
theorem rowsOfText_eq (config : ParserConfig) (text : String) : rowsOfText config text = some (Row.ofText config text) :=
  mapM_eq (fun _ _ => ofLine_eq config _ _)

/-! ## Rows to a tree -/

open Outline

/-- The row that a row of a level goes below. -/
def parent? (branch : Branch) (level : Nat) : Option (Option NodeId) :=
  if level == 0 then some none
  else match (branch[level - 1]?).join with
    | some id => some (some id)
    | none => (sliceTo branch (min (level - 1) branch.length)).map (fun shallower => shallower.reverse.findSome? id)

/-- Makes one node the last child of another. -/
def attach (t : Tree α) (parent child : NodeId) : Option (Tree α) := do
  let t ← update t child (fun n => { n with parent := some parent })
  update t parent (fun n => { n with children := n.children ++ [child] })

variable [Quantity α]

/-- Adds a row to the tree. -/
def add (s : State α) (row : Row) : Option (State α) := do
  let id := s.tree.size
  let tree := s.tree.push row.toNode
  let branch := s.branch.extend row.indentLevel id
  match ← parent? s.branch row.indentLevel with
  | some parent => (attach tree parent id).map (fun tree => { s with tree, branch })
  | none => some { tree, topLevel := s.topLevel ++ [id], branch }

/-- The node that groups several top-level rows, before it has children. -/
def groupingNode : Node α := { Node.ofOperation groupOperation with isSynthetic := true }

/-- Makes a tree of what was added. -/
def close (s : State α) : Option (Tree α) :=
  match s.topLevel with
  | [] => some s.tree
  | [root] => some (s.tree.setRoot root)
  | roots => do
    let root := s.tree.size
    let tree ← roots.foldlM (fun t id => attach t root id) (s.tree.push groupingNode)
    return tree.setRoot root

/-- Puts a node one level below its parent. -/
def assignDepth {α : Type} (t : Tree α) (id : NodeId) : Option (Tree α) := do
  let n ← t.get? id
  let depth ← match n.parent with
    | none => some 0
    | some p => (t.get? p).map (fun m => m.depth + 1)
  update t id (fun n => { n with depth })

/-- Sets all depths, along the walk. -/
def assignDepths {α : Type} (t : Tree α) : Option (Tree α) := do
  let order ← preOrder t
  order.foldlM assignDepth t

/-- The tree of some rows. -/
def ofRows (rows : List Row) : Option (Tree α) := do
  let s ← rows.foldlM add ⟨Tree.empty, [], []⟩
  let t ← close s
  assignDepths t

/-- The tree of a text. -/
def ofText (config : ParserConfig) (text : String) : Option (Tree α) := do
  let rows ← rowsOfText config text
  ofRows rows

omit [Quantity α] in
/-- Two nodes that are there can be linked. -/
theorem attach_eq {t : Tree α} {parent child : NodeId} (hparent : parent < t.size) (hchild : child < t.size) :
    attach t parent child = some (t.link parent child) := by
  rw [attach, then_eq (update_eq hchild _), update_eq (by rwa [size_modify])]
  rfl

/-- The slice is never longer than the branch, and where it ends early the rest of the branch is empty. -/
theorem parent?_eq (branch : Branch) (level : Nat) : parent? branch level = some (branch.parent? level) := by
  unfold parent? Branch.parent?
  split
  · rfl
  · cases (branch[level - 1]?).join with
    | some id => rfl
    | none =>
      dsimp only
      rw [sliceTo_eq (Nat.min_le_right _ _), Option.map_some, ← List.take_eq_take_min]

/-- A row is added below a row that is there. -/
theorem add_eq {rows : List Row} {s : State α} (h : Grown rows s) (row : Row) : add s row = some (s.add row) := by
  unfold add State.add
  rw [then_eq (parent?_eq s.branch row.indentLevel)]
  cases hp : s.branch.parent? row.indentLevel with
  | none => rfl
  | some parent =>
    have hlt : parent < s.tree.size := by
      rw [h.size]
      exact lastShallower_lt ((h.parent? row.indentLevel).symm.trans hp)
    have hattach : attach (s.tree.push row.toNode) parent s.tree.size = some ((s.tree.push row.toNode).link parent s.tree.size) :=
      attach_eq (size_push s.tree _ ▸ Nat.lt_succ_of_lt hlt) (size_push s.tree _ ▸ Nat.lt_succ_self _)
    dsimp only
    rw [hattach]
    rfl

/-- The top-level rows are there when they are grouped. -/
theorem close_eq {rows : List Row} {s : State α} (h : Grown rows s) : close s = some s.close := by
  have htop : ∀ i ∈ s.topLevel, i < s.tree.size := by
    intro i hi
    rw [h.topLevel] at hi
    rw [h.size]
    exact (mem_topRows.mp hi).1
  unfold close State.close
  cases hroots : s.topLevel with
  | nil => rfl
  | cons first roots =>
    cases roots with
    | nil => rfl
    | cons second roots =>
      have hloop : (first :: second :: roots).foldlM (fun t id => attach t s.tree.size id) (s.tree.push groupingNode) =
          some ((first :: second :: roots).foldl (fun t id => t.link s.tree.size id) (s.tree.push groupingNode)) := by
        refine (foldlM_eq (fun t => t.size = s.tree.size + 1) (fun t ht i hi => ?_) (size_push _ _)).1
        refine ⟨attach_eq ?_ ?_, (size_link _ _ _).trans ht⟩
        · exact ht ▸ Nat.lt_succ_self _
        · exact ht ▸ Nat.lt_succ_of_lt (htop i (hroots ▸ hi))
      exact then_eq hloop _

omit [Quantity α] in
/-- A node that gets a depth is there, and so is its parent. -/
theorem assignDepth_eq {t : Tree α} {id : NodeId} (hl : t.Linked) (hid : id < t.size) :
    assignDepth t id = some (Outline.assignDepth t id) := by
  obtain ⟨n, hn⟩ := lt_size_iff.mp hid
  unfold assignDepth Outline.assignDepth structuralDepth Tree.parent?
  rw [then_eq hn, hn, Option.bind_some]
  cases hp : n.parent with
  | none =>
    exact update_eq hid _
  | some p =>
    obtain ⟨m, hm, -⟩ := (hl id n p hn).mp hp
    dsimp only
    rw [hm]
    exact update_eq hid _

omit [Quantity α] in
/-- The nodes of the walk are there. -/
theorem assignDepths_eq {t : Tree α} (h : t.Spanning) (hl : t.Linked) :
    assignDepths t = some (Outline.assignDepths t) := by
  rw [assignDepths, then_eq (preOrder_eq h)]
  refine (foldlM_eq (fun u => Agrees Node.links t u) (fun u hu id hid => ?_) (Agrees.refl _ t)).1
  refine ⟨assignDepth_eq (hl.of_agrees hu) ?_, hu.trans (assignDepth_links u id)⟩
  rw [hu.size_eq]
  exact h.lt_size_of_mem hid

/-- Rows always make a tree. -/
theorem ofRows_eq (rows : List Row) : ofRows rows = some (Tree.ofRows rows : Tree α) := by
  have hadd : rows.foldlM add ⟨Tree.empty, [], []⟩ = some (rows.foldl State.add (⟨Tree.empty, [], []⟩ : State α)) := by
    refine (foldlM_eq (fun s => ∃ before, Grown before s) (fun s hs row _ => ?_) ⟨[], Grown.nil⟩).1
    obtain ⟨before, hs⟩ := hs
    exact ⟨add_eq hs row, before ++ [row], hs.add row⟩
  have hgrown := grown (α := α) rows
  rw [ofRows, then_eq hadd, then_eq (close_eq hgrown)]
  exact assignDepths_eq hgrown.close.spanning hgrown.close.linked

/-- Texts always make a tree. -/
theorem ofText_eq (config : ParserConfig) (text : String) : ofText config text = some (Tree.ofText config text : Tree α) := by
  rw [ofText, then_eq (rowsOfText_eq config text)]
  exact ofRows_eq _

end DaxPlan.Strict
