import DaxPlan.Json

/-!
# JSON text, written

Values are laid out over lines with two blanks more per level. In a text the quotation mark, the reverse solidus and the control
characters are escaped. Numbers are written with the fewest digits that read back.
-/

namespace DaxPlan.Json

/-- One of the sixteen digits. -/
def hexDigit (n : Nat) : Char := Nat.digitChar (n % 16)

/-- A character inside a text. -/
def escapeChar (c : Char) : List Char :=
  if c == '"' then ['\\', '"']
  else if c == '\\' then ['\\', '\\']
  else if c == '\n' then ['\\', 'n']
  else if c == '\r' then ['\\', 'r']
  else if c == '\t' then ['\\', 't']
  else if c.toNat == 8 then ['\\', 'b']
  else if c.toNat == 12 then ['\\', 'f']
  else if c.toNat < 32 then ['\\', 'u', '0', '0', hexDigit (c.toNat / 16), hexDigit c.toNat]
  else [c]

/-- A text with its quotation marks. -/
def quoteText (s : String) : String := String.ofList ('"' :: s.toList.flatMap escapeChar ++ ['"'])

/-- A number is positional from a hundred-thousandth up to below ten to the sixteenth. -/
def numberFormat : Number.ShortestFormat := ⟨some (-5, 16), true, "null", "null"⟩

/-- A line break and the blanks of a level. -/
def lineBreak (level : Nat) : String := String.ofList ('\n' :: List.replicate (2 * level) ' ')

/-- Items between brackets, each on a line of its own. -/
def enclose (opening closing : String) (level : Nat) (items : List String) : String :=
  if items.isEmpty then opening ++ closing
  else
    opening ++ lineBreak (level + 1) ++ String.intercalate ("," ++ lineBreak (level + 1)) items ++ lineBreak level ++ closing

mutual

/-- A value at a level. -/
def render (level : Nat) : Json Float → String
  | .null | .unreadable => "null"
  | .bool b => if b then "true" else "false"
  | .int n => (if n < 0 then "-" else "") ++ Number.digitText n.natAbs
  | .number x => Number.shortestText numberFormat x
  | .text s => quoteText s
  | .array items => enclose "[" "]" level (renderItems (level + 1) items)
  | .object fields => enclose "\x7b" "\x7d" level (renderFields (level + 1) fields)

/-- The items of an array at a level. -/
def renderItems (level : Nat) : List (Json Float) → List String
  | [] => []
  | item :: rest => render level item :: renderItems level rest

/-- The fields of an object at a level. -/
def renderFields (level : Nat) : List (String × Json Float) → List String
  | [] => []
  | (name, value) :: rest => (quoteText name ++ ": " ++ render level value) :: renderFields level rest

end

/-- The text of a value. -/
def toText (v : Json Float) : String := render 0 v

end DaxPlan.Json
