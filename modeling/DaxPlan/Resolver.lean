import DaxPlan.Text.QuotedName

/-!
# Display names

A resolver knows display names for some of the identifiers in a plan: table names between apostrophes and column names between
square brackets. Resolving a line puts the display name in the place of each identifier that has one; the rest of the line stays
as it is.
-/

namespace DaxPlan

/-- The display name of an identifier as written, where there is one. -/
abbrev Resolver := String → Option String

/-- An identifier in a line, as written between its marks. -/
inductive Identifier where
  | table (name : List Char)
  | column (name : List Char)
  deriving DecidableEq, Repr

namespace Identifier

/-- Reads an identifier: a quoted name, or a name in brackets. -/
def read? : Text.Finder Identifier := fun s =>
  match Text.name? s with
  | some (name, _) => some (.table name, Text.markedLength name)
  | none => (Text.bracketed? s).map (fun cut => (.column cut.1, Text.markedLength cut.1))

/-- What a resolver is asked for. -/
def name : Identifier → List Char
  | table name => name
  | column name => name

/-- An identifier's place taken by a display name, between the same marks. -/
def renamed (display : List Char) : Identifier → List Char
  | table _ => '\'' :: display ++ ['\'']
  | column _ => '[' :: display ++ [']']

/-- The identifiers of a line, in order. -/
def all (line : List Char) : List Identifier := Text.occurrences read? line

end Identifier

namespace Resolver

/-- The display name of an identifier, where the resolver knows one. -/
def display? (resolver : Resolver) (i : Identifier) : Option (List Char) :=
  (resolver (String.ofList i.name)).map String.toList

/-- The text in a piece's place. -/
def renderPiece (resolver : Resolver) : Text.Piece Identifier → List Char
  | .found i written =>
    match resolver.display? i with
    | some display => i.renamed display
    | none => written
  | .other c => [c]

/-- A line with display names in the place of identifiers; none if the resolver knows no identifier of the line. -/
def resolve? (resolver : Resolver) (line : List Char) : Option (List Char) :=
  if (Identifier.all line).any (fun i => (resolver.display? i).isSome) then
    some ((Text.pieces Identifier.read? 0 line).flatMap resolver.renderPiece)
  else none

/-- A line with display names in the place of identifiers, as a string. -/
def resolveText? (resolver : Resolver) (line : String) : Option String :=
  (resolver.resolve? line.toList).map String.ofList

end Resolver

end DaxPlan
