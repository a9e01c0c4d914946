import DaxPlan.Number.Shortest

/-!
# Reading floating-point numbers

A decimal is read as the floating-point number nearest to it. Decimals far beyond the largest number are infinite, and those far
below the smallest are zero.
-/

namespace DaxPlan.Number

/-- The float nearest to `digits · 10 ^ exponent`. -/
def nearestFloat (digits : Nat) (exponent : Int) : Float :=
  let place : Int := digitCount digits + exponent
  if digits == 0 || place < -330 then 0.0
  else if 310 < place then 1.0 / 0.0
  else if 0 ≤ exponent then Float.ofScientific digits false exponent.toNat
  else Float.ofScientific digits true (-exponent).toNat

/-- A float with a sign put in front. -/
def signed (negative : Bool) (x : Float) : Float := if negative then -x else x

/-- The value of a list of decimal digits. -/
def digitsToNat (digits : List Char) : Nat := digits.foldl (fun n c => 10 * n + (c.toNat - '0'.toNat)) 0

/-- The parts of a decimal as written: the digits before and after the point, and the exponent. -/
structure Written where
  whole : List Char
  fraction : List Char
  exponent : Int
  deriving Repr

/-- The float nearest to a decimal as written. -/
def Written.toFloat (w : Written) : Float :=
  nearestFloat (digitsToNat (w.whole ++ w.fraction)) (w.exponent - w.fraction.length)

/-- Reads an exponent, if there is one: the letter E, a sign at will, and digits. -/
def exponent? (s : List Char) : Option (Int × List Char) :=
  match s with
  | [] => some (0, [])
  | c :: rest =>
    if c != 'e' && c != 'E' then some (0, s)
    else
      let (negative, rest) := match rest with
        | '-' :: rest => (true, rest)
        | '+' :: rest => (false, rest)
        | _ => (false, rest)
      let digits := rest.takeWhile Char.isDigit
      if digits.isEmpty then none
      else
        let value : Int := digitsToNat digits
        some (if negative then -value else value, rest.drop digits.length)

/-- Reads a text that is nothing but a number: a decimal with a sign, a point and an exponent at will, of which the digits on
one side of the point may be missing; or one of the words `inf`, `infinity` and `nan`, without regard to case. -/
def float? (s : List Char) : Option Float :=
  let (negative, body) := match s with
    | '-' :: rest => (true, rest)
    | '+' :: rest => (false, rest)
    | _ => (false, s)
  let word := body.map Char.toLower
  if word == "inf".toList || word == "infinity".toList then some (signed negative (1.0 / 0.0))
  else if word == "nan".toList then some (0.0 / 0.0)
  else
    let whole := body.takeWhile Char.isDigit
    let (fraction, rest) := match body.drop whole.length with
      | '.' :: rest => (rest.takeWhile Char.isDigit, rest.dropWhile Char.isDigit)
      | rest => ([], rest)
    if whole.isEmpty && fraction.isEmpty then none
    else match exponent? rest with
      | some (exponent, []) => some (signed negative (Written.toFloat ⟨whole, fraction, exponent⟩))
      | _ => none

end DaxPlan.Number
