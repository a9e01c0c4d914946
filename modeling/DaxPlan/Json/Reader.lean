import DaxPlan.Json
import DaxPlan.Number.Read

/-!
# JSON text, read

A text is read as one value with nothing but blanks around it. The digits of a number are gathered into a significand below two
to the sixty-fourth, digits that no longer fit are dropped, and the significand is then scaled by a power of ten; so a number
with few digits is read as the nearest one, and a number with many is read nearly so.
-/

namespace DaxPlan.Json

/-! ## Numbers -/

/-- The largest significand. -/
def maxSignificand : Nat := Number.twoPow 64 - 1

/-- A significand with the power of ten that goes with it. -/
structure Gathered where
  significand : Nat
  exponent : Int

/-- Gathers the digits before the point: from the first that does not fit, each counts as a power of ten. -/
def gatherWhole : Gathered → List Char → Gathered
  | g, [] => g
  | g, c :: rest =>
    let next := 10 * g.significand + (c.toNat - '0'.toNat)
    if maxSignificand < next then ⟨g.significand, g.exponent + (rest.length + 1)⟩ else gatherWhole ⟨next, g.exponent⟩ rest

/-- Gathers the digits after the point, up to the first that does not fit. -/
def gatherFraction : Gathered → List Char → Gathered
  | g, [] => g
  | g, c :: rest =>
    let next := 10 * g.significand + (c.toNat - '0'.toNat)
    if maxSignificand < next then g else gatherFraction ⟨next, g.exponent - 1⟩ rest

/-- The powers of ten that a significand is scaled by in one step reach up to this exponent. -/
def maxStep : Int := 308

/-- A power of ten. -/
def powerOfTen (exponent : Nat) : Float := Number.nearestFloat 1 exponent

/-- Scales a number by a power of ten; none if it grows beyond all numbers. Small powers are reached in several steps, of which
three make any significand zero. -/
def scale? : Nat → Float → Int → Option Float
  | steps, x, exponent =>
    if exponent.natAbs ≤ 308 then
      let power := powerOfTen exponent.natAbs
      if 0 ≤ exponent then
        let scaled := x * power
        if scaled.isFinite then some scaled else none
      else some (x / power)
    else if x == 0.0 then some x
    else if 0 ≤ exponent then none
    else match steps with
      | 0 => some 0.0
      | steps + 1 => scale? steps (x / powerOfTen 308) (exponent + maxStep)

/-- A number with a point or an exponent, or with too many digits for a whole number. -/
def realOf (negative : Bool) (g : Gathered) : Json Float :=
  match scale? 4 (Float.ofNat g.significand) g.exponent with
  | some x => .number (Number.signed negative x)
  | none => .unreadable

/-- A number without point and exponent. Minus zero is not a whole number. -/
def wholeOf (negative : Bool) (digits : List Char) : Json Float :=
  let value := Number.digitsToNat digits
  if maxSignificand < value then realOf negative (gatherWhole ⟨0, 0⟩ digits)
  else if !negative then .int value
  else if value == 0 || Number.twoPow 63 < value then .number (-(Float.ofNat value))
  else .int (-value)

/-- Reads a number: digits without zeros in front, then a point with digits and an exponent at will. -/
def number? (s : List Char) : Option (Json Float × List Char) :=
  let (negative, s) := match s with
    | '-' :: rest => (true, rest)
    | _ => (false, s)
  let whole := s.takeWhile Char.isDigit
  let rest := s.drop whole.length
  if whole.isEmpty || (whole.head? == some '0' && 1 < whole.length) then none
  else
    let point := rest.head? == some '.'
    let fraction := if point then (rest.drop 1).takeWhile Char.isDigit else []
    if point && fraction.isEmpty then none
    else
      let rest := if point then rest.drop (1 + fraction.length) else rest
      let hasExponent := rest.head? == some 'e' || rest.head? == some 'E'
      match Number.exponent? rest with
      | none => none
      | some (exponent, rest) =>
        if !point && !hasExponent then some (wholeOf negative whole, rest)
        else
          let g := gatherFraction (gatherWhole ⟨0, 0⟩ whole) fraction
          some (realOf negative ⟨g.significand, g.exponent + exponent⟩, rest)

/-! ## Texts -/

/-- A part of a text: a character, or a sixteen-bit unit given by its number. -/
inductive TextUnit where
  | char (c : Char)
  | unit (n : Nat)

/-- The value of one of the sixteen digits. -/
def hexValue? (c : Char) : Option Nat :=
  if c.isDigit then some (c.toNat - '0'.toNat)
  else if 'a' ≤ c && c ≤ 'f' then some (c.toNat - 'a'.toNat + 10)
  else if 'A' ≤ c && c ≤ 'F' then some (c.toNat - 'A'.toNat + 10)
  else none

/-- The value of hexadecimal digits. -/
def hexNumber? (digits : List Char) : Option Nat :=
  digits.foldlM (fun n c => (hexValue? c).map (16 * n + ·)) 0

/-- The character that an escape of one letter stands for. -/
def shortEscape? (c : Char) : Option Char :=
  if c == '"' || c == '\\' || c == '/' then some c
  else if c == 'b' then some (Char.ofNat 8)
  else if c == 'f' then some (Char.ofNat 12)
  else if c == 'n' then some '\n'
  else if c == 'r' then some '\r'
  else if c == 't' then some '\t'
  else none

/-- Reads a text up to its closing quotation mark. -/
def textUnits? : List Char → Option (List TextUnit × List Char)
  | [] => none
  | '"' :: rest => some ([], rest)
  | '\\' :: 'u' :: a :: b :: c :: d :: rest => do
    let n ← hexNumber? [a, b, c, d]
    let (units, rest) ← textUnits? rest
    return (.unit n :: units, rest)
  | '\\' :: e :: rest => do
    let c ← shortEscape? e
    let (units, rest) ← textUnits? rest
    return (.char c :: units, rest)
  | c :: rest =>
    if c.toNat < 32 then none
    else do
      let (units, rest) ← textUnits? rest
      return (.char c :: units, rest)

/-- The characters of a text: a high surrogate and a low one after it make one. A surrogate that stands alone makes none. -/
def joinUnits? : List TextUnit → Option (List Char)
  | [] => some []
  | .char c :: rest => (joinUnits? rest).map (c :: ·)
  | .unit high :: .unit low :: rest =>
    if 0xD800 ≤ high && high ≤ 0xDBFF then
      if 0xDC00 ≤ low && low ≤ 0xDFFF then
        (joinUnits? rest).map (Char.ofNat (0x10000 + (high - 0xD800) * 0x400 + (low - 0xDC00)) :: ·)
      else none
    else if 0xDC00 ≤ high && high ≤ 0xDFFF then none
    else (joinUnits? (.unit low :: rest)).map (Char.ofNat high :: ·)
  | .unit n :: rest => if 0xD800 ≤ n && n ≤ 0xDFFF then none else (joinUnits? rest).map (Char.ofNat n :: ·)

/-- Reads a text after its opening quotation mark. -/
def textLiteral? (s : List Char) : Option (Option String × List Char) :=
  (textUnits? s).map (fun read => ((joinUnits? read.1).map String.ofList, read.2))

/-! ## Values -/

/-- The blanks between the signs of JSON. -/
def isSpace (c : Char) : Bool := c == ' ' || c == '\t' || c == '\n' || c == '\r'

def skipSpace (s : List Char) : List Char := s.dropWhile isSpace

/-- The rest of a text after a word. -/
def afterWord? (word : String) (s : List Char) : Option (List Char) :=
  if word.toList.isPrefixOf s then some (s.drop word.length) else none

/-- What is looked for next: a value, the items of an array after the first bracket or a comma, or the fields of an object. -/
inductive Expecting where
  | value | items | fields

/-- What was read: values in order, each with its field name in an object, if that makes a text. -/
abbrev Read := List (Option String × Json Float)

/-- The object with the fields read, of which each must have a name. -/
def objectOf (fields : Read) : Json Float :=
  match fields.mapM (fun f => f.1.map (·, f.2)) with
  | some fields => .object fields
  | none => .unreadable

/-- Reads what is expected. A value is the one entry of its reading. -/
def read : Nat → Expecting → List Char → Option (Read × List Char)
  | 0, _, _ => none
  | fuel + 1, .value, s =>
    match skipSpace s with
    | [] => none
    | '"' :: rest => (textLiteral? rest).map (fun t => ([(none, (t.1.map Json.text).getD .unreadable)], t.2))
    | '[' :: rest =>
      match skipSpace rest with
      | ']' :: rest => some ([(none, .array [])], rest)
      | _ => (read fuel .items rest).map (fun r => ([(none, .array (r.1.map Prod.snd))], r.2))
    | '\x7b' :: rest =>
      match skipSpace rest with
      | '\x7d' :: rest => some ([(none, .object [])], rest)
      | _ => (read fuel .fields rest).map (fun r => ([(none, objectOf r.1)], r.2))
    | s =>
      match afterWord? "null" s, afterWord? "true" s, afterWord? "false" s with
      | some rest, _, _ => some ([(none, .null)], rest)
      | _, some rest, _ => some ([(none, .bool true)], rest)
      | _, _, some rest => some ([(none, .bool false)], rest)
      | none, none, none => (number? s).map (fun n => ([(none, n.1)], n.2))
  | fuel + 1, .items, s => do
    let (item, rest) ← read fuel .value s
    match skipSpace rest with
    | ']' :: rest => return (item, rest)
    | ',' :: rest =>
      let (items, rest) ← read fuel .items rest
      return (item ++ items, rest)
    | _ => none
  | fuel + 1, .fields, s => do
    match skipSpace s with
    | '"' :: rest =>
      let (name, rest) ← textLiteral? rest
      match skipSpace rest with
      | ':' :: rest =>
        let (value, rest) ← read fuel .value rest
        let fieldOf := value.map (fun v => (name, v.2))
        match skipSpace rest with
        | '\x7d' :: rest => return (fieldOf, rest)
        | ',' :: rest =>
          let (fields, rest) ← read fuel .fields rest
          return (fieldOf ++ fields, rest)
        | _ => none
      | _ => none
    | _ => none

/-- The value of a text. -/
def ofText? (text : String) : Option (Json Float) :=
  let s := text.toList
  match read (2 * s.length + 2) .value s with
  | some ([(_, v)], rest) => if (skipSpace rest).isEmpty then some v else none
  | _ => none

end DaxPlan.Json
