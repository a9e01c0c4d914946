/-!
# Blanks, trimming and lines

A blank is a character with the Unicode property White_Space. Trimming removes blanks from the ends of a text, a blank text
has nothing else, and lines end at a line feed. Texts are lists of characters here; records hold the same texts as strings.
-/

namespace DaxPlan.Text

/-- The characters with the Unicode property White_Space. -/
def isBlank (c : Char) : Bool :=
  let n := c.toNat
  (9 ≤ n && n ≤ 13) || n == 0x20 || n == 0x85 || n == 0xA0 || n == 0x1680 || (0x2000 ≤ n && n ≤ 0x200A) ||
    n == 0x2028 || n == 0x2029 || n == 0x202F || n == 0x205F || n == 0x3000

/-- The number of blanks a text starts with. -/
def leadingBlanks (s : List Char) : Nat := (s.takeWhile isBlank).length

/-- The text without the blanks it starts with. -/
def trimStart (s : List Char) : List Char := s.dropWhile isBlank

/-- The text without the blanks it ends with. -/
def trimEnd (s : List Char) : List Char := (s.reverse.dropWhile isBlank).reverse

/-- The text without the blanks at either end. -/
def trim (s : List Char) : List Char := trimEnd (trimStart s)

/-- Nothing but blanks. -/
def isBlankText (s : List Char) : Bool := s.all isBlank

/-- The parts of a text between separators: always at least one, as many as there are separators and one more. -/
def splitAtChar (sep : Char) : List Char → List (List Char)
  | [] => [[]]
  | c :: rest =>
    if c == sep then [] :: splitAtChar sep rest
    else match splitAtChar sep rest with
      | [] => [[c]]
      | part :: parts => (c :: part) :: parts

/-- A line without the carriage return before its line feed. -/
def dropCarriageReturn (line : List Char) : List Char :=
  if line.getLast? == some '\r' then line.dropLast else line

/-- The lines of a text. A line feed ends a line, with the carriage return before it if there is one; characters after the last
line feed are a line too, and keep a carriage return they end with. -/
def lines (s : List Char) : List (List Char) :=
  let parts := splitAtChar '\n' s
  let ended := parts.dropLast.map dropCarriageReturn
  match parts.getLast? with
  | none | some [] => ended
  | some last => ended ++ [last]

/-! ## On strings -/

/-- A string function from a text function. -/
def onString (f : List Char → List Char) (s : String) : String := String.ofList (f s.toList)

end DaxPlan.Text
