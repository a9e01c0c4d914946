import DaxPlan.Text.Blank
import DaxPlan.Text.Occurrence

/-!
# Operators and engines

A plan row names its operator by a token such as `Spool_Iterator<SpoolIterator>` or `Scan_Vertipaq`. The token decides the
category of the operator, and the category decides which engine executes the row.
-/

namespace DaxPlan

/-- The engine that executes an operator. -/
inductive Engine where
  | unknown | storageEngine | formulaEngine | directQuery
  deriving DecidableEq, Repr

/-- The engines that answer storage queries. -/
def Engine.isStorage : Engine → Bool
  | .storageEngine | .directQuery => true
  | .unknown | .formulaEngine => false

/-- The word for an engine in reports. -/
def Engine.name : Engine → String
  | .unknown => "unknown"
  | .storageEngine => "storage_engine"
  | .formulaEngine => "formula_engine"
  | .directQuery => "direct_query"

/-- The category of an operator. -/
inductive Operator where
  | storageScan | directQueryScan
  | spool | spoolLookup | cache
  | join | iterator | filter | aggregation | comparison | arithmetic | logical | variableReference | columnValue | constant
  | unknown
  deriving DecidableEq, Repr

namespace Operator

/-- The word for a category in reports. -/
def name : Operator → String
  | storageScan => "storage_scan"
  | directQueryScan => "direct_query_scan"
  | spool => "spool"
  | spoolLookup => "spool_lookup"
  | cache => "cache"
  | join => "join"
  | iterator => "iterator"
  | filter => "filter"
  | aggregation => "aggregation"
  | comparison => "comparison"
  | arithmetic => "arithmetic"
  | logical => "logical"
  | variableReference => "variable"
  | columnValue => "column_value"
  | constant => "constant"
  | unknown => "unknown"

/-- What a category means to a reader. -/
def description : Operator → String
  | storageScan => "Storage engine query (VertiPaq)"
  | directQueryScan => "Storage engine query (DirectQuery)"
  | spool => "Spool (materializes intermediate results)"
  | spoolLookup => "Spool lookup (hash lookup into a materialized result)"
  | cache => "Datacache read"
  | join => "Join or apply"
  | iterator => "Table iterator"
  | filter => "Filter"
  | aggregation => "Aggregation"
  | comparison => "Comparison"
  | arithmetic => "Arithmetic"
  | logical => "Logical operator"
  | variableReference => "Variable reference"
  | columnValue => "Column value"
  | constant => "Constant"
  | unknown => "Unknown operation"

/-- The operators of each category that is told by the whole token. -/
def vocabulary : List (Operator × List String) := [
  (cache, ["Cache"]),
  (join, ["CrossApply", "CrossJoin", "NaturalInnerJoin", "NaturalLeftOuterJoin", "InnerHashJoin", "LeftOuterHashJoin",
    "ApplyRemap", "ApplyRemap_Lookup", "Extend_Lookup", "NaturalJoin"]),
  (iterator, ["AddColumns", "GroupBy", "GroupSemiJoin", "Union", "Distinct", "Calculate", "CalculateTable", "SelectColumns",
    "Summarize", "SummarizeColumns", "TopN", "Order", "TreatAs", "Values", "All", "Except", "Intersect", "Generate", "Proxy",
    "TableCtor", "DatesBetween"]),
  (filter, ["Filter", "DataPostFilter", "KeepFilters", "RemoveFilters"]),
  (aggregation, ["Sum", "SumX", "Count", "CountRows", "Min", "Max", "Average", "AverageX", "DistinctCount", "MinX", "MaxX",
    "Aggregate"]),
  (comparison, ["LessThan", "LessOrEqualTo", "GreaterThan", "GreaterOrEqualTo", "Equal", "NotEqual", "In", "IsBlank",
    "Compare"]),
  (arithmetic, ["Add", "Subtract", "Multiply", "Divide", "Negate", "Power", "Round", "Abs"]),
  (logical, ["And", "Or", "Not", "If", "Switch", "Coalesce"]),
  (variableReference, ["ScalarVarProxy", "TableVarProxy", "VarScope", "Variable"]),
  (columnValue, ["ColValue", "ColPosition", "ColumnValue"]),
  (constant, ["Constant", "Blank"])]

/-- The name an operator token carries: without the blanks around it, and without template arguments. -/
def baseName (token : List Char) : List Char :=
  let trimmed := Text.trim token
  if trimmed.contains '<' then Text.trimEnd (trimmed.takeWhile (· != '<')) else trimmed

/-- The category of a base name. The endings of storage scans come first, then the lookups into a spool, then every other
name that speaks of a spool, and last the names that are told whole. -/
def ofBaseName (base : List Char) : Operator :=
  if "_Vertipaq".toList.isSuffixOf base || base == "VertipaqResult".toList then storageScan
  else if "_DirectQuery".toList.isSuffixOf base || base == "DirectQueryResult".toList then directQueryScan
  else if "HashLookup".toList.isSuffixOf base || base == "SpoolLookup".toList || base == "Spool_Lookup".toList then spoolLookup
  else if Text.hasPart "Spool".toList base then spool
  else match vocabulary.find? (fun entry => entry.2.any (·.toList == base)) with
    | some entry => entry.1
    | none => unknown

/-- The category of an operator token. -/
def ofToken (token : String) : Operator := ofBaseName (baseName token.toList)

/-- The engine that executes a category. -/
def engine : Operator → Engine
  | storageScan => .storageEngine
  | directQueryScan => .directQuery
  | unknown => .unknown
  | _ => .formulaEngine

/-- The operators that keep intermediate results in memory. -/
def isMaterializing : Operator → Bool
  | spool | spoolLookup => true
  | _ => false

end Operator

end DaxPlan
