import DaxPlan.Number.Shortest

/-!
# Numbers in text

Whole numbers, shortest decimals in positional or exponent notation, and decimals with a fixed number of places. A fixed-place
decimal is rounded from the exact value of the number, and a value half way between two goes to the even one.
-/

namespace DaxPlan.Number

/-- The decimal digits of a natural number. -/
def digitText (n : Nat) : String := String.ofList (Nat.toDigits 10 n)

/-- The decimal digits, with zeros in front up to a width. -/
def paddedText (width n : Nat) : String :=
  let digits := Nat.toDigits 10 n
  String.ofList (List.replicate (width - digits.length) '0' ++ digits)

/-- The sign that a number's text starts with. -/
def signText (negative : Bool) : String := if negative then "-" else ""

/-- A decimal written without an exponent: zeros stand for the places that have no digit. `point` asks for a decimal point and
one place even where there is no fraction. -/
def Decimal.positional (d : Decimal) (point : Bool) : String :=
  let whole := if point then ".0" else ""
  if 0 ≤ d.scale then digitText d.digits ++ String.ofList (List.replicate d.scale.toNat '0') ++ whole
  else
    let places := (-d.scale).toNat
    let digits := Nat.toDigits 10 d.digits
    let padded := List.replicate (places + 1 - digits.length) '0' ++ digits
    String.ofList (padded.take (padded.length - places)) ++ "." ++ String.ofList (padded.drop (padded.length - places))

/-- A decimal written with one digit before the point and an exponent. -/
def Decimal.scientific (d : Decimal) : String :=
  let digits := Nat.toDigits 10 d.digits
  let exponent : Int := d.scale + digits.length - 1
  let rest := digits.drop 1
  String.ofList (digits.take 1) ++ (if rest.isEmpty then "" else "." ++ String.ofList rest) ++ "e" ++
    (if exponent < 0 then "-" else "") ++ digitText exponent.natAbs

/-- How the shortest decimal of a floating-point number is laid out. -/
structure ShortestFormat where
  /-- The places of the leading digit, counted from the point, that are written positionally: `low < place ≤ high`; none
  where every place is. -/
  positional : Option (Int × Int)
  /-- A whole number is written with a point and a zero. -/
  point : Bool
  nan : String
  infinity : String

/-- The text of a float in a shortest format. -/
def shortestText (format : ShortestFormat) (x : Float) : String :=
  match Reading.ofFloat x with
  | .nan => format.nan
  | .infinite negative => signText negative ++ format.infinity
  | .finite b =>
    if b.significand == 0 then signText b.negative ++ (if format.point then "0.0" else "0")
    else
      let d := b.shortest
      let place : Int := d.scale + digitCount d.digits
      let inside := match format.positional with
        | none => true
        | some (low, high) => low < place && place ≤ high
      signText b.negative ++ (if inside then d.positional format.point else d.scientific)

/-- Plain notation: never an exponent, and a whole number has no point. -/
def plainFormat : ShortestFormat := ⟨none, false, "NaN", "inf"⟩

/-- The whole number nearest to `numerator / denominator`; a half goes to the even one. -/
def roundToEven (numerator denominator : Nat) : Nat :=
  let quotient := numerator / denominator
  let remainder := numerator % denominator
  if 2 * remainder < denominator then quotient
  else if denominator < 2 * remainder then quotient + 1
  else if quotient % 2 == 0 then quotient else quotient + 1

/-- The text of a float with a fixed number of places. The sign of zero is kept. -/
def fixedText (places : Nat) (x : Float) : String :=
  match Reading.ofFloat x with
  | .nan => "NaN"
  | .infinite negative => signText negative ++ "inf"
  | .finite b =>
    let (numerator, denominator) := b.fraction
    let scaled := roundToEven (numerator * tenPow places) denominator
    let fraction := if places == 0 then "" else "." ++ paddedText places (scaled % tenPow places)
    signText b.negative ++ digitText (scaled / tenPow places) ++ fraction

end DaxPlan.Number
