import DaxPlan.Number.Quantity

/-!
# JSON values

A value of the JSON format. Whole numbers are kept apart from other numbers, and the fields of an object are kept in their
order. A literal can be well formed and still have no value: a number beyond all floating-point numbers, or a text with half of
a surrogate pair. Such a literal, or an object with such a text for a field name, may stand where nothing reads it.
-/

namespace DaxPlan

/-- A JSON value with numbers of type `α`. -/
inductive Json (α : Type) where
  | null
  | bool (value : Bool)
  | int (value : Int)
  | number (value : α)
  | text (value : String)
  | array (items : List (Json α))
  | object (fields : List (String × Json α))
  | unreadable
  deriving Repr

namespace Json

variable {α : Type}

/-! ## Values written -/

/-- A count. -/
def ofNat (n : Nat) : Json α := .int n

/-- A quantity; one that is no finite number is written as null. -/
def ofQuantity [Quantity α] (x : α) : Json α := if Quantity.isFinite x then .number x else .null

/-- A value that may be absent; absence is written as null. -/
def ofOption {β : Type} (f : β → Json α) : Option β → Json α
  | none => .null
  | some x => f x

/-! ## Values read -/

/-- The text that a value is. -/
def text? : Json α → Option String
  | .text s => some s
  | _ => none

/-- The truth value that a value is. -/
def bool? : Json α → Option Bool
  | .bool b => some b
  | _ => none

/-- The count that a value is, below two to the sixty-fourth. -/
def count? : Json α → Option Nat
  | .int n => if 0 ≤ n && n < Number.twoPow 64 then some n.toNat else none
  | _ => none

/-- The quantity that a value is; a whole number is one too. -/
def quantity? [Quantity α] : Json α → Option α
  | .number x => some x
  | .int n =>
    let x : α := Quantity.ofNat n.natAbs
    some (if n < 0 then Quantity.zero - x else x)
  | _ => none

/-- The items of an array. -/
def items? : Json α → Option (List (Json α))
  | .array items => some items
  | _ => none

/-- The fields of an object. -/
def fields? : Json α → Option (List (String × Json α))
  | .object fields => some fields
  | _ => none

/-- A value that may be absent: null stands for absence. -/
def optional? {β : Type} (f : Json α → Option β) : Json α → Option (Option β)
  | .null => some none
  | v => (f v).map some

/-- The fields of a record: its field names, and for each what was given for it, if anything. -/
structure Record (α : Type) where
  given : List (String × Json α)

/-- Reads a record: an object that gives none of the fields twice, where other fields are passed over, or an array that gives
the fields in order. -/
def record? (names : List String) : Json α → Option (Record α)
  | .object fields =>
    let given := fields.filter (fun f => names.contains f.1)
    if (given.map Prod.fst).Nodup then some ⟨given⟩ else none
  | .array items => if items.length ≤ names.length then some ⟨names.zip items⟩ else none
  | _ => none

/-- What was given for a field. -/
def Record.get? (r : Record α) (name : String) : Option (Json α) := (r.given.find? (·.1 == name)).map Prod.snd

/-- Reads a field that must be given. -/
def Record.required? {β : Type} (r : Record α) (name : String) (f : Json α → Option β) : Option β := (r.get? name).bind f

/-- Reads a field that has a value where none is given. -/
def Record.orElse? {β : Type} (r : Record α) (name : String) (standard : β) (f : Json α → Option β) : Option β :=
  match r.get? name with
  | none => some standard
  | some v => f v

end Json

end DaxPlan
