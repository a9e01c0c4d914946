import DaxPlan.Text.Keyword
import DaxPlan.Text.Lowercase
import DaxPlan.Text.QuotedName

/-!
# Storage engine queries

A storage engine query is scanned for calls back into the formula engine, for its joins, for batch and index features, and for
the columns it refers to as `'Table'[Column]`. The scan is a function of the text and never fails; in a text that is no query it
finds nothing.
-/

namespace DaxPlan

/-- A call from the storage engine back into the formula engine. -/
inductive Callback where
  | callbackDataId | encodeCallback | logAbsValueCallback | roundValueCallback | minMaxColumnPositionCallback | cond
  deriving DecidableEq, Repr

namespace Callback

/-- All callbacks, the most significant first. -/
def all : List Callback :=
  [callbackDataId, encodeCallback, logAbsValueCallback, roundValueCallback, minMaxColumnPositionCallback, cond]

/-- The word for a callback in reports. -/
def name : Callback → String
  | callbackDataId => "callback_data_id"
  | encodeCallback => "encode_callback"
  | logAbsValueCallback => "log_abs_value_callback"
  | roundValueCallback => "round_value_callback"
  | minMaxColumnPositionCallback => "min_max_column_position_callback"
  | cond => "cond"

/-- The function that a query calls. -/
def marker : Callback → String
  | callbackDataId => "CallbackDataID"
  | encodeCallback => "EncodeCallback"
  | logAbsValueCallback => "LogAbsValueCallback"
  | roundValueCallback => "RoundValueCallback"
  | minMaxColumnPositionCallback => "MinMaxColumnPositionCallback"
  | cond => "Cond"

/-- The callback is made for every row and its results are not cached. -/
def isPerRow (c : Callback) : Bool := c == callbackDataId

/-- The query makes the callback. -/
def occursIn (c : Callback) (query : List Char) : Bool := Text.hasCall c.marker query

end Callback

/-- How a query joins tables. -/
inductive JoinKind where
  | leftOuter | inner | reverseBitmap | reverseHash | cross
  deriving DecidableEq, Repr

namespace JoinKind

def all : List JoinKind := [leftOuter, inner, reverseBitmap, reverseHash, cross]

/-- The word for a join in reports. -/
def name : JoinKind → String
  | leftOuter => "left_outer"
  | inner => "inner"
  | reverseBitmap => "reverse_bitmap"
  | reverseHash => "reverse_hash"
  | cross => "cross"

/-- The phrase that a query joins with. -/
def phrase : JoinKind → List String
  | leftOuter => ["LEFT", "OUTER", "JOIN"]
  | inner => ["INNER", "JOIN"]
  | reverseBitmap => ["REVERSE", "BITMAP", "JOIN"]
  | reverseHash => ["REVERSE", "HASH", "JOIN"]
  | cross => ["CROSS", "JOIN"]

def occursIn (k : JoinKind) (query : List Char) : Bool := Text.hasWords k.phrase query

end JoinKind

namespace Query

/-! ## References -/

/-- Reads a reference `'Table'[Column]`, with blanks at will before the bracket: both names as written. -/
def reference? : Text.Finder (List Char × List Char) := fun s => do
  let (table, rest) ← Text.closedName? s
  let blanks := Text.leadingBlanks rest
  let (column, _) ← Text.bracketed? (rest.drop blanks)
  return ((table, column), Text.markedLength table + blanks + Text.markedLength column)

/-- The references of a text in order: the table's name, and the column's without blanks at its ends. -/
def references (text : List Char) : List (List Char × List Char) :=
  (Text.occurrences reference? text).map (fun r => (Text.undoubleApostrophes r.1, Text.trim r.2))

/-- A column with its table. -/
def qualifiedName (table column : List Char) : List Char := '\'' :: table ++ ['\'', '['] ++ column ++ [']']

/-- Drops every name that equals an earlier one but for case. -/
def distinctNames (names : List (List Char)) : List (List Char) :=
  (names.foldl (fun (seen : List (List Char) × List (List Char)) name =>
    let key := Text.lower name
    if seen.1.contains key then seen else (key :: seen.1, name :: seen.2)) ([], [])).2.reverse

/-- The tables a text refers to. -/
def tablesOf (text : List Char) : List (List Char) := distinctNames ((references text).map Prod.fst)

/-- The columns a text refers to. -/
def columnsOf (text : List Char) : List (List Char) :=
  distinctNames ((references text).map (fun r => qualifiedName r.1 r.2))

/-- The first quoted name of a text. -/
def firstTable? (text : List Char) : Option (List Char) :=
  (Text.firstOccurrence? (fun s => (Text.name? s).map (fun cut => (cut.1, 0))) text).map Text.undoubleApostrophes

/-! ## Features -/

/-- The query defines a batch. -/
def usesBatch (query : List Char) : Bool :=
  Text.hasWords ["DEFINE", "TABLE"] query || Text.hasWords ["CREATE", "SHALLOW", "RELATION"] query

/-- The query reads a bitmap index. -/
def usesBitmapIndex (query : List Char) : Bool :=
  Text.hasWords ["ININDEX"] query || Text.hasWords ["REVERSE", "BITMAP", "JOIN"] query

/-- The value given for `DC_KIND`, in quotation marks after an equals sign. -/
def datacacheKind? (query : List Char) : Option (List Char) :=
  Text.atWordStart? (fun s => do
    let rest ← Text.afterKeyword? "DC_KIND".toList s
    match Text.trimStart rest with
    | '=' :: rest =>
      match Text.trimStart rest with
      | '"' :: rest =>
        match rest.span (· != '"') with
        | (kind, _ :: _) => some kind
        | (_, []) => none
      | _ => none
    | _ => none) none query

/-- A text embeds a query: it selects from something, defines a batch or makes a callback. -/
def isEmbeddedIn (text : List Char) : Bool :=
  (match Text.afterWords? ["SELECT"] text with
    | some rest => Text.hasWords ["FROM"] rest
    | none => false) ||
  usesBatch text || Callback.all.any (·.occursIn text)

end Query

/-- What a scan finds in a query. -/
structure QueryInfo where
  /-- The callbacks found, the most significant first. -/
  callbacks : List Callback
  joins : List JoinKind
  usesBatch : Bool
  usesBitmapIndex : Bool
  datacacheKind : Option String
  /-- Tables referred to, in the order of their first occurrence. -/
  tables : List String
  /-- Columns referred to, in the order of their first occurrence. -/
  columns : List String
  deriving DecidableEq, Repr

namespace QueryInfo

/-- Scans a query. -/
def ofText (query : String) : QueryInfo :=
  let text := query.toList
  { callbacks := Callback.all.filter (·.occursIn text)
    joins := JoinKind.all.filter (·.occursIn text)
    usesBatch := Query.usesBatch text
    usesBitmapIndex := Query.usesBitmapIndex text
    datacacheKind := (Query.datacacheKind? text).map String.ofList
    tables := (Query.tablesOf text).map String.ofList
    columns := (Query.columnsOf text).map String.ofList }

/-- The most significant callback. -/
def primaryCallback (info : QueryInfo) : Option Callback := info.callbacks.head?

/-- The most significant callback is made for every row. -/
def hasPerRowCallback (info : QueryInfo) : Bool := info.primaryCallback.any Callback.isPerRow

end QueryInfo

end DaxPlan
