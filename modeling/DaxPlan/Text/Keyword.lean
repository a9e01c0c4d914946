import DaxPlan.Text.Blank
import DaxPlan.Text.Word

/-!
# Keywords in a text

A keyword is looked for as a whole word and without regard to case. Two characters count as forms of an English letter: the
Kelvin sign as a K, and the long s as an S. A phrase is a list of keywords with blanks between them.
-/

namespace DaxPlan.Text

/-- The letter or sign a character counts as where case is not regarded. -/
def foldLetter (c : Char) : Char :=
  if c.toNat == 0x212A then 'k' else if c.toNat == 0x17F then 's' else c.toLower

/-- The rest of a text after a keyword it starts with. -/
def afterKeyword? : List Char → List Char → Option (List Char)
  | [], s => some s
  | _ :: _, [] => none
  | k :: keyword, c :: s => if foldLetter c == foldLetter k then afterKeyword? keyword s else none

/-- No word character: a word may begin after it and end before it. -/
def isWordBreak (c : Option Char) : Bool := !c.any isWordChar

/-- The rest of a text after a phrase it starts with: keywords with at least one blank between them. -/
def afterPhrase? : List (List Char) → List Char → Option (List Char)
  | [], s => some s
  | [keyword], s => afterKeyword? keyword s
  | keyword :: phrase, s => do
    let rest ← afterKeyword? keyword s
    if rest.head?.any isBlank then afterPhrase? phrase (trimStart rest) else none

/-- The first result of a reading that is tried at every place where a word may begin, given the character before the text. -/
def atWordStart? {β : Type} (read : List Char → Option β) : Option Char → List Char → Option β
  | _, [] => none
  | before, c :: rest =>
    match (if isWordBreak before then read (c :: rest) else none) with
    | some result => some result
    | none => atWordStart? read (some c) rest

/-- What follows a phrase of whole words, at its first place in a text. -/
def afterWords? (phrase : List String) (s : List Char) : Option (List Char) :=
  atWordStart? (fun s => (afterPhrase? (phrase.map String.toList) s).filter (fun rest => isWordBreak rest.head?)) none s

/-- A phrase of whole words occurs in a text. -/
def hasWords (phrase : List String) (s : List Char) : Bool := (afterWords? phrase s).isSome

/-- A function is called in a text: its name as the beginning of a word, then blanks at will and an opening parenthesis. -/
def hasCall (function : String) (s : List Char) : Bool :=
  (atWordStart? (fun s => do
    let rest ← afterKeyword? function.toList s
    if (trimStart rest).head? == some '(' then some () else none) none s).isSome

end DaxPlan.Text
