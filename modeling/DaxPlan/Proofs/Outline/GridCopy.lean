import DaxPlan.Proofs.Outline.TextualOrder
import DaxPlan.Proofs.Row.Reading

/-!
# Plans copied from a grid

What a node tells of its row can be changed before the tree is made or after it: places and levels come out the same
(`ofRows_map`). A plan that is copied from a trace grid has the number and the record count of each row in front of the plan line,
and a header perhaps. Its rows read as the plan lines alone do, but for the record counts (`ofText_gridRows`), and so does its
tree (`ofText_gridCopy`). A tab ends a field wherever it stands, so a number with a tab of its own makes another line
(`ofText_number_with_tab`).
-/

namespace DaxPlan.Outline

open DaxPlan.Tree

variable {α : Type} {g : Node α → Node α}

/-! ## Changed nodes -/

/-- A change of nodes that neither reads nor writes their places and levels. -/
def KeepsPlaces (g : Node α → Node α) : Prop :=
  ∀ n id parent children depth, g { n with id, parent, children, depth } = { g n with id, parent, children, depth }

namespace KeepsPlaces

/-- Such a change leaves the id alone. -/
theorem id (h : KeepsPlaces g) (n : Node α) : (g n).id = n.id :=
  (congrArg Node.id (h n n.id n.parent n.children n.depth) :)

/-- Such a change leaves the parent alone. -/
theorem parent (h : KeepsPlaces g) (n : Node α) : (g n).parent = n.parent :=
  (congrArg Node.parent (h n n.id n.parent n.children n.depth) :)

/-- Such a change leaves the children alone. -/
theorem children (h : KeepsPlaces g) (n : Node α) : (g n).children = n.children :=
  (congrArg Node.children (h n n.id n.parent n.children n.depth) :)

/-- Such a change leaves the depth alone. -/
theorem depth (h : KeepsPlaces g) (n : Node α) : (g n).depth = n.depth :=
  (congrArg Node.depth (h n n.id n.parent n.children n.depth) :)

/-- It may come before the id is set or after. -/
theorem withId (h : KeepsPlaces g) (n : Node α) (id : NodeId) : g { n with id } = { g n with id } :=
  (h n id n.parent n.children n.depth).trans (by rw [← h.parent, ← h.children, ← h.depth])

/-- It may come before the parent is set or after. -/
theorem withParent (h : KeepsPlaces g) (n : Node α) (parent : Option NodeId) : g { n with parent } = { g n with parent } :=
  (h n n.id parent n.children n.depth).trans (by rw [← h.id, ← h.children, ← h.depth])

/-- It may come before a child is added or after. -/
theorem withChild (h : KeepsPlaces g) (n : Node α) (child : NodeId) :
    g { n with children := n.children ++ [child] } = { g n with children := (g n).children ++ [child] } :=
  (h n n.id n.parent (n.children ++ [child]) n.depth).trans (by rw [h.children, ← h.id, ← h.parent, ← h.depth])

/-- It may come before the depth is set or after. -/
theorem withDepth (h : KeepsPlaces g) (n : Node α) (depth : Nat) : g { n with depth } = { g n with depth } :=
  (h n n.id n.parent n.children depth).trans (by rw [← h.id, ← h.parent, ← h.children])

end KeepsPlaces

/-- A tree keeps its size when its nodes are changed. -/
@[simp] theorem size_map (t : Tree α) (g : Node α → Node α) : (t.map g).size = t.size := by
  simp [size, Tree.map]

/-- Nodes may be changed before one is added or after. -/
theorem map_push (h : KeepsPlaces g) (t : Tree α) (n : Node α) : (t.push n).map g = (t.map g).push (g n) := by
  refine ext_get? rfl (fun i => ?_)
  rw [get?_map, get?_push, get?_push, get?_map, size_map]
  split
  · rw [Option.map_some, h.withId]
  · rfl

/-- Two changes that go together may be made in either order. -/
theorem map_modify {f : Node α → Node α} (h : ∀ n, g (f n) = f (g n)) (t : Tree α) (id : NodeId) :
    (t.modify id f).map g = (t.map g).modify id f := by
  refine ext_get? rfl (fun i => ?_)
  rw [get?_map, get?_modify, get?_modify, get?_map]
  split
  · rw [Option.map_map, Option.map_map, show g ∘ f = f ∘ g from funext h]
  · rfl

/-- Nodes may be changed before two of them are linked or after. -/
theorem map_link (h : KeepsPlaces g) (t : Tree α) (parent child : NodeId) :
    (t.link parent child).map g = (t.map g).link parent child := by
  rw [link, link, map_modify (fun n => h.withChild n child), map_modify (fun n => h.withParent n (some parent))]

/-- Nodes may be changed before some of them are linked to one or after. -/
theorem map_foldl_link (h : KeepsPlaces g) (roots : List NodeId) (parent : NodeId) (t : Tree α) :
    (roots.foldl (fun t id => t.link parent id) t).map g = roots.foldl (fun t id => t.link parent id) (t.map g) := by
  induction roots generalizing t with
  | nil => rfl
  | cons root roots ih => rw [List.foldl_cons, List.foldl_cons, ih, map_link h]

/-- What a change leaves alone is the same in the tree that is changed. -/
theorem map_agrees {β : Type} {f : Node α → β} (h : ∀ n, f (g n) = f n) (t : Tree α) : Agrees f t (t.map g) := by
  refine ⟨rfl, fun i => ?_⟩
  rw [get?_map, Option.map_map, show f ∘ g = f from funext h]

/-- Depths do not hang on what is changed. -/
theorem structuralDepth_map (h : KeepsPlaces g) (t : Tree α) (id : NodeId) :
    structuralDepth (t.map g) id = structuralDepth t id := by
  unfold structuralDepth
  rw [parent?_congr (map_agrees h.parent t)]
  cases t.parent? id with
  | none => rfl
  | some p => simp only [(map_agrees h.depth t).2 p]

/-- Nodes may be changed before a depth is set or after. -/
theorem map_assignDepth (h : KeepsPlaces g) (t : Tree α) (id : NodeId) :
    (assignDepth t id).map g = assignDepth (t.map g) id := by
  rw [assignDepth, assignDepth, structuralDepth_map h]
  exact map_modify (fun n => h.withDepth n _) t id

/-- Nodes may be changed before the depths are set or after. -/
theorem map_assignDepths (h : KeepsPlaces g) (t : Tree α) : (assignDepths t).map g = assignDepths (t.map g) := by
  have hfold : ∀ (ids : List NodeId) (t : Tree α), (ids.foldl assignDepth t).map g = ids.foldl assignDepth (t.map g) := by
    intro ids
    induction ids with
    | nil => exact fun _ => rfl
    | cons id ids ih =>
      intro t
      rw [List.foldl_cons, List.foldl_cons, ih, map_assignDepth h]
  rw [assignDepths, assignDepths, preOrder_congr (map_agrees h.children t), hfold]

/-! ## Changed rows -/

variable [Quantity α]

/-- A tree under construction with its nodes changed. -/
def State.map (g : Node α → Node α) (s : State α) : State α := { s with tree := s.tree.map g }

/-- Nodes may be changed before a row is added or after, if the node of the row is changed too. -/
theorem map_add (h : KeepsPlaces g) (s : State α) {row row' : Row} (hnode : (row'.toNode : Node α) = g row.toNode)
    (hlevel : row'.indentLevel = row.indentLevel) : (s.map g).add row' = (s.add row).map g := by
  have hsize : (s.map g).tree.size = s.tree.size := size_map s.tree g
  have hpush : (s.map g).tree.push row'.toNode = (s.tree.push row.toNode).map g := by
    rw [map_push h, hnode]
    rfl
  unfold State.add
  dsimp only
  rw [hsize, hpush, hlevel, show (s.map g).branch = s.branch from rfl]
  split
  · rw [← map_link h]
    rfl
  · rfl

/-- Nodes may be changed before the rows are closed or after, if the grouping node is not. -/
theorem map_close (h : KeepsPlaces g)
    (hgroup : g { Node.ofOperation groupOperation with isSynthetic := true } =
      { Node.ofOperation groupOperation with isSynthetic := true })
    (s : State α) : (s.map g).close = s.close.map g := by
  have hsize : (s.map g).tree.size = s.tree.size := size_map s.tree g
  unfold State.close
  rw [show (s.map g).topLevel = s.topLevel from rfl]
  split
  · rfl
  · rfl
  · rename_i roots _ _
    dsimp only
    rw [hsize, show ∀ (t : Tree α) root, (t.setRoot root).map g = (t.map g).setRoot root from fun _ _ => rfl, map_foldl_link h,
      map_push h, hgroup]
    rfl

/-- Changing what the nodes of rows tell changes the nodes of the tree, and nothing else. -/
theorem ofRows_map (h : KeepsPlaces g)
    (hgroup : g { Node.ofOperation groupOperation with isSynthetic := true } =
      { Node.ofOperation groupOperation with isSynthetic := true })
    {f : Row → Row} (hnode : ∀ row, ((f row).toNode : Node α) = g row.toNode)
    (hlevel : ∀ row, (f row).indentLevel = row.indentLevel)
    (rows : List Row) : (Tree.ofRows (rows.map f) : Tree α) = (Tree.ofRows rows).map g := by
  have hfold : ∀ (rows : List Row) (s : State α),
      (rows.map f).foldl State.add (s.map g) = (rows.foldl State.add s).map g := by
    intro rows
    induction rows with
    | nil => exact fun _ => rfl
    | cons row rows ih =>
      intro s
      rw [List.map_cons, List.foldl_cons, List.foldl_cons, map_add h s (hnode row) (hlevel row), ih]
  have hempty : (⟨Tree.empty, [], []⟩ : State α) = State.map g ⟨Tree.empty, [], []⟩ := by
    simp [State.map, Tree.map, Tree.empty]
  rw [Tree.ofRows, hempty, hfold, map_close h hgroup, ← map_assignDepths h]
  rfl

/-! ## Rows of a grid -/

/-- A line of a grid: its number, its record count, and the plan line. Neither of the first two fields has a tab, the first is a
number, and the plan line is a row but none of a grid. -/
structure GridRow where
  number : List Char
  records : List Char
  line : List Char
  number_tab : '\t' ∉ number
  counted : (Text.unsigned? (Text.trim number)).isSome = true
  records_tab : '\t' ∉ records
  plain : Row.IsPlain line

namespace GridRow

/-- The line as it is written. -/
def text (r : GridRow) : List Char := r.number ++ '\t' :: (r.records ++ '\t' :: r.line)

/-- The record count of a line, if its field is one. -/
def count? (r : GridRow) : Option Nat := Text.unsigned? (Text.trim r.records)

/-- A plan line of a grid is not empty. -/
theorem line_ne_nil (r : GridRow) : r.line ≠ [] := by
  rintro hnil
  have hblank := r.plain.nonblank
  rw [hnil] at hblank
  cases hblank

/-- A line of a grid gives its count, and what its plan line gives. -/
theorem reading? (config : ParserConfig) (r : GridRow) :
    Row.reading? config r.text = some (r.count?, Row.measureIndent r.line config.indentWidth) :=
  Row.reading?_grid r.number_tab r.counted r.records_tab r.plain.nonblank

/-- The plan line of a row without the carriage return that it may end with. -/
def dropCarriageReturn (r : GridRow) : GridRow :=
  { r with line := Text.dropCarriageReturn r.line, plain := r.plain.dropCarriageReturn }

/-- The carriage return of a line of a grid is that of its plan line. -/
theorem text_dropCarriageReturn (r : GridRow) : Text.dropCarriageReturn r.text = r.dropCarriageReturn.text := by
  have hsplit : r.text = (r.number ++ '\t' :: (r.records ++ ['\t'])) ++ r.line := by simp [text]
  rw [hsplit, Text.dropCarriageReturn_append r.line_ne_nil]
  simp [text, dropCarriageReturn]

/-- A line of a grid is read alike with a carriage return and without one. -/
theorem reading?_dropCarriageReturn (config : ParserConfig) (r : GridRow) :
    Row.reading? config (Text.dropCarriageReturn r.text) = Row.reading? config r.text := by
  rw [text_dropCarriageReturn, reading?, reading?]
  exact congrArg (fun m => some (r.count?, m)) (Row.measureIndent_dropCarriageReturn r.plain.nonblank config.indentWidth)

end GridRow

/-- The record counts of rows, by the numbers that these have among the rows. -/
def gridCount (rows : List GridRow) : Nat → Option Nat
  | 0 => none
  | i + 1 => rows[i]?.bind GridRow.count?

/-- A row with the record count of the grid, if there is one. -/
def withGridCount (rows : List GridRow) (row : Row) : Row :=
  { row with recordCount := (gridCount rows row.number).or row.recordCount }

variable {config : ParserConfig} {header : Option (List Char)} {rows : List GridRow} {grid plain : String}

/-- The rows of a plan copied from a grid are those of its plan lines, with the record counts of the grid. -/
theorem ofText_gridRows (hheader : ∀ line ∈ header, Row.isGridHeader line = true)
    (hgrid : Text.HasLines (header.toList ++ rows.map GridRow.text) grid.toList)
    (hplain : Text.HasLines (rows.map GridRow.line) plain.toList) :
    Row.ofText config grid = (Row.ofText config plain).map (withGridCount rows) := by
  have hempty : Row.reading? config [] = none := rfl
  have hskip : header.toList.filterMap (Row.reading? config) = [] := by
    cases header with
    | none => rfl
    | some line => simp [Row.reading?_header (hheader line rfl)]
  have hends : ∀ line ∈ header.toList ++ rows.map GridRow.text,
      Row.reading? config (Text.dropCarriageReturn line) = Row.reading? config line := by
    intro line hline
    rcases List.mem_append.mp hline with hline | hline
    · exact Row.reading?_dropCarriageReturn_header (hheader line (Option.mem_toList.mp hline))
    · obtain ⟨r, -, rfl⟩ := List.mem_map.mp hline
      exact r.reading?_dropCarriageReturn config
  have hgridReadings : (Text.lines grid.toList).filterMap (Row.reading? config) =
      rows.map (fun r => (r.count?, Row.measureIndent r.line config.indentWidth)) := by
    rw [hgrid.filterMap_lines hempty hends, List.filterMap_append, hskip, List.nil_append, List.filterMap_map,
      ← List.filterMap_eq_map]
    exact List.filterMap_congr (fun r _ => r.reading? config)
  have hplainReadings : (Text.lines plain.toList).filterMap (Row.reading? config) =
      rows.map (fun r => (none, Row.measureIndent r.line config.indentWidth)) := by
    rw [hplain.filterMap_lines hempty (fun line hline => by
      obtain ⟨r, -, rfl⟩ := List.mem_map.mp hline
      exact Row.reading?_dropCarriageReturn r.plain), List.filterMap_map, ← List.filterMap_eq_map]
    exact List.filterMap_congr (fun r _ => Row.reading?_plain r.plain)
  -- Both texts keep the same lines, so a row has the same number in both, and its count is found by that number.
  rw [Row.ofText_eq, Row.ofText_eq, hgridReadings, hplainReadings, List.zipIdx_map, List.zipIdx_map, List.map_map, List.map_map,
    List.map_map]
  refine List.map_congr_left (fun r hr => ?_)
  obtain ⟨r, i⟩ := r
  have hi : rows[i]? = some r := List.mem_zipIdx_iff_getElem?.mp hr
  have hcount : gridCount rows (i + 1) = r.count? := by
    rw [gridCount, hi]
    rfl
  simp only [Function.comp_apply, Prod.map, id_eq, Row.ofReading, withGridCount, hcount]
  cases r.count? <;> rfl

/-- A plan copied from a grid makes the same tree as its plan lines alone, node for node and field for field, but that a node has
the record count of the grid where the grid has one. -/
theorem ofText_gridCopy (hheader : ∀ line ∈ header, Row.isGridHeader line = true)
    (hgrid : Text.HasLines (header.toList ++ rows.map GridRow.text) grid.toList)
    (hplain : Text.HasLines (rows.map GridRow.line) plain.toList) :
    (Tree.ofText config grid : Tree α) =
      (Tree.ofText config plain).map (fun n => { n with recordCount := (gridCount rows n.rowNumber).or n.recordCount }) := by
  rw [Tree.ofText, ofText_gridRows hheader hgrid hplain]
  exact ofRows_map (g := fun n => { n with recordCount := (gridCount rows n.rowNumber).or n.recordCount })
    (f := withGridCount rows) (fun _ _ _ _ _ => rfl) rfl (fun _ => rfl) (fun _ => rfl) _

/-- The count of the grid comes before the `#Records` of the first row. The second has none in the grid, so it keeps its own; the
tab that it starts with is its level and no field, and the carriage return at its end is not read. -/
theorem ofText_gridCopy_spool :
    let first : GridRow :=
      ⟨" 1".toList, "16 ".toList, "Spool_Iterator: IterPhyOp #Records=5".toList, by decide, by decide, by decide,
        ⟨by decide, by decide, by decide⟩⟩
    let second : GridRow :=
      ⟨"+2".toList, "n/a".toList, "\tScan_Vertipaq: VertipaqPhyOp #Records=7\r".toList, by decide, by decide, by decide,
        ⟨by decide, by decide, by decide⟩⟩
    let header := "LINE\t Records\tPlan".toList
    let grid := "LINE\t Records\tPlan\n 1\t16 \tSpool_Iterator: IterPhyOp #Records=5\n" ++
      "+2\tn/a\t\tScan_Vertipaq: VertipaqPhyOp #Records=7\r"
    let plain := "Spool_Iterator: IterPhyOp #Records=5\n\tScan_Vertipaq: VertipaqPhyOp #Records=7\r\n"
    (∀ line ∈ some header, Row.isGridHeader line = true) ∧
      Text.HasLines (header :: [first, second].map GridRow.text) grid.toList ∧
      Text.HasLines ([first, second].map GridRow.line) plain.toList ∧
      (Tree.ofText {} grid : Tree Rat) =
        (Tree.ofText {} plain).map (fun n => { n with recordCount := (gridCount [first, second] n.rowNumber).or n.recordCount }) ∧
      (Tree.ofText {} grid : Tree Rat).nodes.map (fun n => (n.depth, n.recordCount)) = #[(0, some 16), (1, some 7)] := by
  intro first second header grid plain
  have hheader : ∀ line ∈ some header, Row.isGridHeader line = true := by
    rintro line ⟨⟩
    decide
  have hends : '\n' ∉ header ∧ '\n' ∉ first.text ∧ '\n' ∉ second.text := by decide
  have hplainEnds : '\n' ∉ first.line ∧ '\n' ∉ second.line := by decide
  have hgridText : header ++ '\n' :: (first.text ++ '\n' :: second.text) = grid.toList := by decide
  have hplainText : first.line ++ '\n' :: (second.line ++ '\n' :: []) = plain.toList := by decide
  have hgrid : Text.HasLines (header :: [first, second].map GridRow.text) grid.toList :=
    hgridText ▸ .cons hends.1 (.cons hends.2.1 (.last hends.2.2))
  have hplain : Text.HasLines ([first, second].map GridRow.line) plain.toList :=
    hplainText ▸ .cons hplainEnds.1 (.cons hplainEnds.2 .nil)
  exact ⟨hheader, hgrid, hplain, ofText_gridCopy hheader hgrid hplain, by decide +kernel⟩

/-- The number `1` behind a tab is a number when it is trimmed, but the tab is the first to end a field. So the line is no row of
a grid: its operation is the whole line, and it has no record count. -/
theorem ofText_number_with_tab :
    (Text.unsigned? (Text.trim "\t1".toList)).isSome = true ∧ '\t' ∉ "5".toList ∧ Row.IsPlain "Scan".toList ∧
      (Tree.ofText {} "\t1\t5\tScan" : Tree Rat) ≠ (Tree.ofText {} "Scan").map (fun n => { n with recordCount := some 5 }) := by
  refine ⟨by decide, by decide, ⟨by decide, by decide, by decide⟩, fun heq => ?_⟩
  have hoperation := congrArg (fun t : Tree Rat => t.nodes.map Node.operation) heq
  revert hoperation
  decide +kernel

end DaxPlan.Outline
