import DaxPlan.Settings
import DaxPlan.Toml.Reader
import DaxPlan.Error

/-!
# Settings from a file

A settings file is a TOML document with a section for each part of the settings. Sections, keys within them and sections or keys
of other names may be there or not. A section is a table; an array gives its values in the order of the keys, and a date gives
none.
-/

namespace DaxPlan.Settings

open Toml (Value)

/-- The values given in a section, by key; none for a value that cannot be a section. -/
def section? (keys : List String) : Option Value → Option (List (String × Value))
  | none => some []
  | some (.table fields) => some fields
  | some (.array items) => some (keys.zip items)
  | some .dateTime => some []
  | some _ => none

/-- A count: an integer that is not negative. -/
def count? : Value → Option Nat
  | .integer n => if 0 ≤ n then some n.toNat else none
  | _ => none

/-- A number; an integer is one too. -/
def number? : Value → Option Float
  | .float x => some x
  | .integer n => some (Float.ofInt n)
  | _ => none

/-- A list of texts. -/
def texts? : Value → Option (List String)
  | .array items => items.mapM (fun
    | .text s => some s
    | _ => none)
  | _ => none

/-- Reads the value of a key, if there is one. -/
def field? {β : Type} (given : List (String × Value)) (key : String) (standard : β) (read : Value → Option β) : Option β :=
  match given.find? (·.1 == key) with
  | none => some standard
  | some (_, v) => read v

/-- The parser section. -/
def parser? (v : Option Value) : Option ParserConfig := do
  let given ← section? ["indent_width", "record_count_keys"] v
  let standard : ParserConfig := {}
  let indentWidth ← field? given "indent_width" standard.indentWidth count?
  let recordCountKeys ← field? given "record_count_keys" standard.recordCountKeys texts?
  return { indentWidth, recordCountKeys }

/-- The issues section. -/
def issues? (v : Option Value) : Option IssueThresholds := do
  let given ← section? ["materialization_warning_records", "materialization_error_records"] v
  let standard : IssueThresholds := {}
  let warningRecords ← field? given "materialization_warning_records" standard.warningRecords count?
  let errorRecords ← field? given "materialization_error_records" standard.errorRecords count?
  return { warningRecords, errorRecords }

/-- The keys of the layout section. -/
def layoutKeys : List String :=
  ["node_width", "node_height", "horizontal_spacing", "vertical_spacing", "max_overlap_iterations", "overlap_tolerance",
    "auto_collapse_target", "auto_collapse_max_iterations"]

/-- The layout section. -/
def layout? (v : Option Value) : Option (LayoutConfig Float) := do
  let given ← section? layoutKeys v
  let standard : LayoutConfig Float := LayoutConfig.standard
  let nodeWidth ← field? given "node_width" standard.nodeWidth number?
  let nodeHeight ← field? given "node_height" standard.nodeHeight number?
  let horizontalSpacing ← field? given "horizontal_spacing" standard.horizontalSpacing number?
  let verticalSpacing ← field? given "vertical_spacing" standard.verticalSpacing number?
  let maxOverlapIterations ← field? given "max_overlap_iterations" standard.maxOverlapIterations count?
  let overlapTolerance ← field? given "overlap_tolerance" standard.overlapTolerance number?
  let autoCollapseTarget ← field? given "auto_collapse_target" standard.autoCollapseTarget count?
  let autoCollapseMaxIterations ← field? given "auto_collapse_max_iterations" standard.autoCollapseMaxIterations count?
  return {
    nodeWidth, nodeHeight, horizontalSpacing, verticalSpacing, maxOverlapIterations, overlapTolerance, autoCollapseTarget,
    autoCollapseMaxIterations }

/-- Settings from a table. -/
def ofTable? (fields : List (String × Value)) : Option (Settings Float) := do
  let entry (key : String) : Option Value := (fields.find? (·.1 == key)).map Prod.snd
  let parser ← parser? (entry "parser")
  let issues ← issues? (entry "issues")
  let layout ← layout? (entry "layout")
  return { parser, issues, layout }

/-- Settings from the text of a file. -/
def ofText (text : String) : Except (Error Float) (Settings Float) :=
  match (Toml.ofText? text).bind ofTable? with
  | some settings => .ok settings
  | none => .error .settings

end DaxPlan.Settings
