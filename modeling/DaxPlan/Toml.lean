import DaxPlan.Number.Read

/-!
# TOML values and tables

A settings file is a TOML document: a table of values, some of which are tables again. A table can be written in several places
of a document, and the format restricts how. A table that only a longer header has named is implied, and a header may still
define it once. Dotted keys put values only into tables that dotted keys began. What is written as a value, an inline table or
an array, is closed.
-/

namespace DaxPlan.Toml

/-- A value of a document. Dates and times are all alike here: no setting is one. -/
inductive Value where
  | text (s : String)
  | integer (n : Int)
  | float (x : Float)
  | boolean (b : Bool)
  | dateTime
  | array (items : List Value)
  | table (fields : List (String × Value))
  deriving Repr

/-- How a table came about: implied by a longer header, begun by dotted keys, or defined. -/
inductive Origin where
  | implied | dotted | defined
  deriving DecidableEq, Repr

/-- An entry of a table under construction. -/
inductive Item where
  | value (v : Value)
  | table (origin : Origin) (fields : List (String × Item))
  | tables (items : List (List (String × Item)))
  deriving Repr

/-- The entries of a table under construction. -/
abbrev Fields := List (String × Item)

/-- The entry under a key. -/
def Fields.get? (fields : Fields) (key : String) : Option Item := (fields.find? (·.1 == key)).map Prod.snd

/-- Puts an entry under a key, in the place of one that is there. -/
def Fields.set (fields : Fields) (key : String) (item : Item) : Fields :=
  if fields.any (·.1 == key) then fields.map (fun f => if f.1 == key then (key, item) else f)
  else fields ++ [(key, item)]

/-- Adds a value under a dotted key. The table that the last key goes into is one that dotted keys began; the tables on the way
to it may also be implied, or be the last of several under one key. -/
def Fields.insert? : List String → Value → Fields → Option Fields
  | [], _, _ => none
  | [key], v, fields => if (fields.get? key).isSome then none else some (fields ++ [(key, .value v)])
  | key :: next :: path, v, fields =>
    match fields.get? key with
    | none => (Fields.insert? (next :: path) v []).map (fun inner => fields ++ [(key, .table .dotted inner)])
    | some (.table origin inner) =>
      if origin == .dotted || (origin == .implied && !path.isEmpty) then
        (Fields.insert? (next :: path) v inner).map (fun inner => fields.set key (.table origin inner))
      else none
    | some (.tables items) =>
      match items.getLast? with
      | none => none
      | some last =>
        if path.isEmpty then none
        else
          (Fields.insert? (next :: path) v last).map (fun inner => fields.set key (.tables (items.dropLast ++ [inner])))
    | some (.value _) => none

/-- Changes the entries of the table at a path; tables that are not there are implied, and of several tables under one key the
last one counts. -/
def Fields.atPath? (change : Fields → Option Fields) : List String → Fields → Option Fields
  | [], fields => change fields
  | key :: path, fields =>
    match fields.get? key with
    | none => (Fields.atPath? change path []).map (fun inner => fields ++ [(key, .table .implied inner)])
    | some (.table origin inner) =>
      (Fields.atPath? change path inner).map (fun inner => fields.set key (.table origin inner))
    | some (.tables items) =>
      match items.getLast? with
      | none => none
      | some last =>
        (Fields.atPath? change path last).map (fun inner => fields.set key (.tables (items.dropLast ++ [inner])))
    | some (.value _) => none

/-- Defines a table under a key: a new one, or one that was only implied. -/
def Fields.define? (key : String) (fields : Fields) : Option Fields :=
  match fields.get? key with
  | none => some (fields ++ [(key, .table .defined [])])
  | some (.table .implied inner) => some (fields.set key (.table .defined inner))
  | some _ => none

/-- Adds a table to those under a key. -/
def Fields.append? (key : String) (fields : Fields) : Option Fields :=
  match fields.get? key with
  | none => some (fields ++ [(key, .tables [[]])])
  | some (.tables items) => some (fields.set key (.tables (items ++ [[]])))
  | some _ => none

mutual

/-- The value of an entry. -/
def Item.toValue : Item → Value
  | .value v => v
  | .table _ fields => .table (fieldValues fields)
  | .tables items => .array (tableValues items)

/-- The values of a table's entries. -/
def fieldValues : List (String × Item) → List (String × Value)
  | [] => []
  | (key, item) :: rest => (key, item.toValue) :: fieldValues rest

/-- The values of several tables. -/
def tableValues : List (List (String × Item)) → List Value
  | [] => []
  | fields :: rest => .table (fieldValues fields) :: tableValues rest

end

/-! ## A document, statement by statement -/

/-- A statement of a document. -/
inductive Statement where
  | header (path : List String)
  | tablesHeader (path : List String)
  | assign (path : List String) (v : Value)
  deriving Repr

/-- A document so far: its tables, and the path of the one that assignments go to. -/
structure Document where
  fields : Fields
  current : List String

/-- The document after a statement; none if the statement is not allowed there. -/
def Document.step? (d : Document) : Statement → Option Document
  | .header path => do
    let key ← path.getLast?
    let fields ← Fields.atPath? (Fields.define? key) path.dropLast d.fields
    return ⟨fields, path⟩
  | .tablesHeader path => do
    let key ← path.getLast?
    let fields ← Fields.atPath? (Fields.append? key) path.dropLast d.fields
    return ⟨fields, path⟩
  | .assign path v => do
    let fields ← Fields.atPath? (Fields.insert? path v) d.current d.fields
    return ⟨fields, d.current⟩

/-- The table of a list of statements. -/
def ofStatements? (statements : List Statement) : Option (List (String × Value)) :=
  (statements.foldlM Document.step? ⟨[], []⟩).map (fun d => fieldValues d.fields)

/-- The table that dotted assignments between braces make. -/
def inlineTable? (assignments : List (List String × Value)) : Option Value :=
  (assignments.foldlM (fun fields a => Fields.insert? a.1 a.2 fields) []).map (fun fields => .table (fieldValues fields))

end DaxPlan.Toml
