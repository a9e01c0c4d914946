/-!
# Occurrences in a text

A reader answers at a place of a text whether something stands there, and if so what and how many characters it takes. The
occurrences of what it reads are found from left to right; the next is looked for where the last one ends.
-/

namespace DaxPlan.Text

/-- What stands at the beginning of a text, and the number of its characters. -/
abbrev Finder (β : Type) := List Char → Option (β × Nat)

/-- A text cut into what was found in it and the characters around that. An occurrence keeps its own characters too. -/
inductive Piece (β : Type) where
  | found (value : β) (written : List Char)
  | other (c : Char)

/-- The pieces of a text, once `skip` characters are passed over. An occurrence takes at least one character. -/
def pieces {β : Type} (find : Finder β) : Nat → List Char → List (Piece β)
  | _, [] => []
  | skip + 1, _ :: rest => pieces find skip rest
  | 0, c :: rest =>
    match find (c :: rest) with
    | some (value, length) => .found value ((c :: rest).take length) :: pieces find (length - 1) rest
    | none => .other c :: pieces find 0 rest

/-- The occurrences in a text. -/
def occurrences {β : Type} (find : Finder β) (s : List Char) : List β :=
  (pieces find 0 s).filterMap (fun
    | .found value _ => some value
    | .other _ => none)

/-- The first occurrence in a text. -/
def firstOccurrence? {β : Type} (find : Finder β) : List Char → Option β
  | [] => none
  | c :: rest =>
    match find (c :: rest) with
    | some (value, _) => some value
    | none => firstOccurrence? find rest

/-- One text occurs in another. -/
def hasPart (part : List Char) : List Char → Bool
  | [] => part.isEmpty
  | c :: rest => part.isPrefixOf (c :: rest) || hasPart part rest

end DaxPlan.Text
