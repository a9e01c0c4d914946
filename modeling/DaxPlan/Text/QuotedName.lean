import DaxPlan.Text.Occurrence

/-!
# Quoted names

A name is quoted with apostrophes, and an apostrophe inside it is written twice. A quotation ends at an apostrophe that is not
one of such a pair. Where a text ends before that, the quotation is cut short: it ends at the last pair, whose first apostrophe
closes it. A quoted name has at least one character.
-/

namespace DaxPlan.Text

/-- A name between apostrophes, its own apostrophes doubled. -/
def doubleApostrophes : List Char → List Char
  | [] => []
  | c :: rest => if c == '\'' then '\'' :: '\'' :: doubleApostrophes rest else c :: doubleApostrophes rest

/-- The quoted form of a name. -/
def quoteName (name : List Char) : List Char := '\'' :: doubleApostrophes name ++ ['\'']

/-- Each pair of apostrophes read as one. -/
def undoubleApostrophes : List Char → List Char
  | '\'' :: '\'' :: rest => '\'' :: undoubleApostrophes rest
  | c :: rest => c :: undoubleApostrophes rest
  | [] => []

/-- The length of a name as written together with the marks around it. -/
def markedLength (name : List Char) : Nat := name.length + 2

/-- What stands before the first single apostrophe, and what after it. -/
def untilApostrophe : List Char → Option (List Char × List Char)
  | '\'' :: '\'' :: rest => (untilApostrophe rest).map (fun cut => ('\'' :: '\'' :: cut.1, cut.2))
  | c :: rest =>
    if c == '\'' then some ([], rest) else (untilApostrophe rest).map (fun cut => (c :: cut.1, cut.2))
  | [] => none

/-- In a text without single apostrophes: what stands before the last pair, and what after its first apostrophe. -/
def untilLastPair : List Char → Option (List Char × List Char)
  | '\'' :: '\'' :: rest =>
    match untilLastPair rest with
    | some cut => some ('\'' :: '\'' :: cut.1, cut.2)
    | none => some ([], '\'' :: rest)
  | c :: rest => (untilLastPair rest).map (fun cut => (c :: cut.1, cut.2))
  | [] => none

/-- Reads a quoted name that ends at a single apostrophe: the name as written, and the rest of the text. -/
def closedName? (s : List Char) : Option (List Char × List Char) :=
  match s with
  | '\'' :: rest => (untilApostrophe rest).filter (fun cut => !cut.1.isEmpty)
  | _ => none

/-- Reads a quoted name, cut short if need be: the name as written, and the rest of the text. -/
def name? (s : List Char) : Option (List Char × List Char) :=
  match s with
  | '\'' :: rest =>
    let cut := match untilApostrophe rest with
      | some cut => some cut
      | none => untilLastPair rest
    cut.filter (fun cut => !cut.1.isEmpty)
  | _ => none

/-- Reads a name in square brackets, which runs up to the first closing bracket: the name, and the rest of the text. -/
def bracketed? (s : List Char) : Option (List Char × List Char) :=
  match s with
  | '[' :: rest =>
    match rest.span (· != ']') with
    | (name, _ :: rest) => if name.isEmpty then none else some (name, rest)
    | (_, []) => none
  | _ => none

end DaxPlan.Text
