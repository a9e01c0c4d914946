import DaxPlan.Node
import DaxPlan.Settings
import DaxPlan.Text.Blank
import DaxPlan.Text.Occurrence
import DaxPlan.Text.Unsigned

/-!
# Plan rows

A plan is dumped as lines, one operator row each:

```
Spool_Iterator<SpoolIterator>: IterPhyOp LogOp=Sum_Vertipaq #Records=16
    ProjectionSpool<ProjectFusion<Copy>>: SpoolPhyOp #Records=16
```

The leading blanks of a line give its level. What stands before the first colon outside quotes and brackets is the operation,
what follows it the details. A line copied from a trace grid has two more fields in front, its number and its record count,
set off by tabs. Reading never fails.
-/

namespace DaxPlan

/-- One line of a plan, read. -/
structure Row where
  /-- The place among the rows, from one. -/
  number : Nat
  indentLevel : Nat
  operation : String
  details : String
  operator : Operator
  recordCount : Option Nat
  logicalOp : Option String
  deriving DecidableEq, Repr

namespace Row

/-! ## Indentation -/

/-- The columns after one more blank: a tab is as wide as a level, any other blank is one column wide. Columns are counted in a
machine word, which wraps around. -/
def addColumns (width columns : Nat) (blank : Char) : Nat := Number.addWord columns (if blank == '\t' then width else 1)

/-- Columns of the blanks that a line starts with. -/
def indentColumns (width : Nat) (blanks : List Char) : Nat := blanks.foldl (addColumns width) 0

/-- The level of a line, and the line without the blanks at its ends. A level is at least one column wide. -/
def measureIndent (line : List Char) (indentWidth : Nat) : Nat × List Char :=
  let width := max indentWidth 1
  (indentColumns width (line.takeWhile Text.isBlank) / width, Text.trimEnd (line.dropWhile Text.isBlank))

/-! ## Operation and details -/

/-- Where a scan of an operation stands: in the open, below some unclosed brackets; in a quotation; or in square brackets,
where quotes and other brackets mean nothing. -/
inductive Zone where
  | plain (depth : Nat)
  | quoted (quote : Char) (depth : Nat)
  | square (nesting : Nat) (depth : Nat)
  deriving DecidableEq, Repr

/-- The zone after a character. A closing bracket without an opening one counts for nothing. -/
def Zone.step : Zone → Char → Zone
  | .plain depth, c =>
    if c == '\'' || c == '"' then .quoted c depth
    else if c == '[' then .square 0 depth
    else if c == '(' || c == '{' || c == '<' then .plain (depth + 1)
    else if c == ')' || c == '}' || c == '>' then .plain (depth - 1)
    else .plain depth
  | .quoted quote depth, c => if c == quote then .plain depth else .quoted quote depth
  | .square nesting depth, c =>
    if c == '[' then .square (nesting + 1) depth
    else if c == ']' then
      match nesting with
      | 0 => .plain depth
      | outer + 1 => .square outer depth
    else .square nesting depth

/-- Cuts a text at the first colon in the open, outside all brackets. -/
def cutAtColon : Zone → List Char → Option (List Char × List Char)
  | _, [] => none
  | zone, c :: rest =>
    if zone == .plain 0 && c == ':' then some ([], rest)
    else (cutAtColon (zone.step c) rest).map (fun cut => (c :: cut.1, cut.2))

/-- The operation and the details of a line, both without blanks at the ends. A line without a colon to cut at has no
details. -/
def splitOperation (text : List Char) : List Char × List Char :=
  match cutAtColon (.plain 0) text with
  | some (operation, details) => (Text.trim operation, Text.trim details)
  | none => (Text.trim text, [])

/-! ## Tokens -/

/-- A `key=value` token of the details. -/
structure Token where
  key : List Char
  value : List Char
  deriving DecidableEq, Repr

def isKeyStart (c : Char) : Bool := c.isAlpha || c == '_'

def isKeyChar (c : Char) : Bool := c.isAlphanum || c == '_'

/-- A value runs up to a blank, a comma or a bracket. -/
def isValueChar (c : Char) : Bool :=
  !(Text.isBlank c || c == ',' || c == '(' || c == ')' || c == '[' || c == ']')

/-- The length of the key a text starts with: a letter or an underscore, then letters, digits and underscores, with a number
sign in front at most; zero where there is no key. -/
def keyLength (s : List Char) : Nat :=
  let sign := if s.head? == some '#' then 1 else 0
  match s.drop sign with
  | [] => 0
  | c :: rest => if isKeyStart c then sign + 1 + (rest.takeWhile isKeyChar).length else 0

/-- Reads an equals sign with blanks around it at will, and a value: the number of characters before the value, and the
value. -/
def assigned? (s : List Char) : Option (Nat × List Char) :=
  let before := Text.leadingBlanks s
  match s.drop before with
  | '=' :: rest =>
    let after := Text.leadingBlanks rest
    let value := (rest.drop after).takeWhile isValueChar
    if value.isEmpty then none else some (before + 1 + after, value)
  | _ => none

/-- Reads a token: a key, an equals sign, and a value. -/
def token? : Text.Finder Token := fun s =>
  let length := keyLength s
  if length == 0 then none
  else (assigned? (s.drop length)).map (fun a => (⟨s.take length, a.2⟩, length + a.1 + a.2.length))

/-- The tokens of the details, in order. -/
def tokens (details : List Char) : List Token := Text.occurrences token? details

/-- The value of the first `LogOp` token. -/
def logicalOpOf (tokens : List Token) : Option String :=
  (tokens.find? (·.key == "LogOp".toList)).map (fun t => String.ofList t.value)

/-- The record count a token gives, if its key is one of those and its value a count. -/
def Token.records? (keys : List String) (t : Token) : Option Nat :=
  if t.key != "LogOp".toList && keys.any (fun k => Text.equalIgnoringAsciiCase k.toList t.key) then
    Text.unsigned? t.value
  else none

/-! ## Lines -/

/-- The record count and the plan line of a grid row: a line whose first field is a number and that has two more fields. -/
def gridRow? (line : List Char) : Option (Option Nat × List Char) :=
  match line.span (· != '\t') with
  | (number, _ :: rest) =>
    match rest.span (· != '\t') with
    | (records, _ :: planLine) =>
      if (Text.unsigned? (Text.trim number)).isSome then some (Text.unsigned? (Text.trim records), planLine) else none
    | (_, []) => none
  | (_, []) => none

/-- The header of a grid: its first two fields are `Line` and `Records`. -/
def isGridHeader (line : List Char) : Bool :=
  match Text.splitAtChar '\t' line with
  | first :: second :: _ =>
    Text.equalIgnoringAsciiCase (Text.trim first) "line".toList &&
      Text.equalIgnoringAsciiCase (Text.trim second) "records".toList
  | _ => false

/-- Reads a line. A record count of the grid comes before one of the details. -/
def ofLine (config : ParserConfig) (line : List Char) (number : Nat) : Row :=
  let (gridRecords, planLine) := (gridRow? line).getD (none, line)
  let (indentLevel, content) := measureIndent planLine config.indentWidth
  let (operation, details) := splitOperation content
  let tokens := tokens details
  { number, indentLevel
    operation := String.ofList operation
    details := String.ofList details
    operator := Operator.ofBaseName (Operator.baseName operation)
    recordCount := gridRecords.orElse (fun _ => tokens.findSome? (Token.records? config.recordCountKeys))
    logicalOp := logicalOpOf tokens }

/-- The lines of a plan text that are rows: neither blank nor the header of a grid. -/
def planLines (text : List Char) : List (List Char) :=
  (Text.lines text).filter (fun line => !Text.isBlankText line && !isGridHeader line)

/-- The rows of a plan text. -/
def ofText (config : ParserConfig) (text : String) : List Row :=
  (planLines text.toList).zipIdx.map (fun line => ofLine config line.1 (line.2 + 1))

/-- A detached node with the fields of a row. -/
def toNode {α : Type} [Quantity α] (row : Row) : Node α :=
  { Node.ofOperation row.operation with
    details := row.details
    rowNumber := row.number
    indentLevel := row.indentLevel
    operator := row.operator
    recordCount := row.recordCount
    logicalOp := row.logicalOp }

end Row

end DaxPlan
