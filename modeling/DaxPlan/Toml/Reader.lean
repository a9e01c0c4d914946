import DaxPlan.Text.Blank
import DaxPlan.Toml

/-!
# TOML text

A document is a list of lines, each with at most one statement and a comment at will. The readers below take what they read off
the front of a text and answer with the rest.
-/

namespace DaxPlan.Toml

/-- Reads something off the front of a text. -/
abbrev Reader (β : Type) := List Char → Option (β × List Char)

/-- The arrays and inline tables that may stand one within the other, and the keys that may stand in one path. -/
def maxLevels : Nat := 79

/-! ## Characters -/

def isSpace (c : Char) : Bool := c == ' ' || c == '\t'

def skipSpace (s : List Char) : List Char := s.dropWhile isSpace

/-- A character that may stand in a comment, a text or a literal: no control character but the tab. -/
def isPrintable (c : Char) : Bool := c == '\t' || (32 ≤ c.toNat && c.toNat != 127)

def isBareKeyChar (c : Char) : Bool := c.isAlphanum || c == '-' || c == '_'

/-- The rest of a text after a line break it starts with. -/
def afterLineBreak? : List Char → Option (List Char)
  | '\n' :: rest => some rest
  | '\r' :: '\n' :: rest => some rest
  | _ => none

/-- The rest of a text after a comment it starts with; the text itself if it starts with none. -/
def skipComment (s : List Char) : List Char :=
  match s with
  | '#' :: rest => rest.dropWhile isPrintable
  | _ => s

/-- Passes over blanks, line breaks and comments. -/
def skipLines : Nat → List Char → List Char
  | 0, s => s
  | fuel + 1, s =>
    let s := skipComment (skipSpace s)
    match afterLineBreak? s with
    | some rest => skipLines fuel rest
    | none => s

/-! ## Texts -/

/-- The value of one of the sixteen digits. -/
def hexValue? (c : Char) : Option Nat :=
  if c.isDigit then some (c.toNat - '0'.toNat)
  else if 'a' ≤ c && c ≤ 'f' then some (c.toNat - 'a'.toNat + 10)
  else if 'A' ≤ c && c ≤ 'F' then some (c.toNat - 'A'.toNat + 10)
  else none

/-- The character with a code point given in hexadecimal digits. -/
def codePoint? (digits : List Char) : Option Char := do
  let n ← digits.foldlM (fun n c => (hexValue? c).map (16 * n + ·)) 0
  if n < 0xD800 || (0xE000 ≤ n && n < 0x110000) then some (Char.ofNat n) else none

/-- Reads an escape after its reverse solidus. -/
def escape? : Reader Char
  | 'b' :: rest => some (Char.ofNat 8, rest)
  | 'f' :: rest => some (Char.ofNat 12, rest)
  | 'n' :: rest => some ('\n', rest)
  | 'r' :: rest => some ('\r', rest)
  | 't' :: rest => some ('\t', rest)
  | '"' :: rest => some ('"', rest)
  | '\\' :: rest => some ('\\', rest)
  | 'u' :: rest => if rest.length < 4 then none else (codePoint? (rest.take 4)).map (fun c => (c, rest.drop 4))
  | 'U' :: rest => if rest.length < 8 then none else (codePoint? (rest.take 8)).map (fun c => (c, rest.drop 8))
  | _ => none

/-- Reads a text of one line up to its quotation mark. -/
def basicText? : Nat → Reader (List Char)
  | 0, _ => none
  | fuel + 1, s =>
    match s with
    | '"' :: rest => some ([], rest)
    | '\\' :: rest => do
      let (c, rest) ← escape? rest
      let (cs, rest) ← basicText? fuel rest
      return (c :: cs, rest)
    | c :: rest =>
      if isPrintable c then do
        let (cs, rest) ← basicText? fuel rest
        return (c :: cs, rest)
      else none
    | [] => none

/-- Reads a literal of one line up to its apostrophe. -/
def literalText? (s : List Char) : Option (List Char × List Char) :=
  match s.span (fun c => isPrintable c && c != '\'') with
  | (cs, '\'' :: rest) => some (cs, rest)
  | _ => none

/-- The quotes that end a text of several lines: three, and up to two more before them that belong to the text. -/
def closing? (quote : Char) (s : List Char) : Option (List Char × List Char) :=
  let run := (s.takeWhile (· == quote)).length
  if run < 3 then none
  else
    let count := min run 5
    some (List.replicate (count - 3) quote, s.drop count)

/-- The rest of a text after the blanks and line breaks it starts with. A carriage return without its line feed is neither. -/
def skipBlankLines : List Char → List Char
  | '\r' :: '\n' :: rest => skipBlankLines rest
  | c :: rest => if isSpace c || c == '\n' then skipBlankLines rest else c :: rest
  | [] => []

/-- Passes over blanks and line breaks, of which there must be one before anything else. -/
def afterFoldedLine? (s : List Char) : Option (List Char) :=
  (afterLineBreak? (skipSpace s)).map skipBlankLines

/-- Reads a text of several lines, after its opening quotes. A reverse solidus at the end of a line joins it with the next. -/
def longText? (quote : Char) (escapes : Bool) : Nat → Reader (List Char)
  | 0, _ => none
  | fuel + 1, s =>
    match closing? quote s with
    | some ending => some ending
    | none =>
      match s with
      | [] => none
      | c :: rest =>
        if escapes && c == '\\' then
          match afterFoldedLine? rest with
          | some rest => longText? quote escapes fuel rest
          | none => do
            let (c, rest) ← escape? rest
            let (cs, rest) ← longText? quote escapes fuel rest
            return (c :: cs, rest)
        else
          match afterLineBreak? s with
          | some rest => do
            let (cs, rest) ← longText? quote escapes fuel rest
            return ('\n' :: cs, rest)
          | none =>
            if isPrintable c then do
              let (cs, rest) ← longText? quote escapes fuel rest
              return (c :: cs, rest)
            else none

/-- The rest of a text after a line break it may start with. -/
def dropLineBreak (s : List Char) : List Char := (afterLineBreak? s).getD s

/-- Reads a text in any of the four notations. -/
def text? (s : List Char) : Option (String × List Char) :=
  let read := match s with
    | '"' :: '"' :: '"' :: rest => longText? '"' true (rest.length + 1) (dropLineBreak rest)
    | '\'' :: '\'' :: '\'' :: rest => longText? '\'' false (rest.length + 1) (dropLineBreak rest)
    | '"' :: rest => basicText? (rest.length + 1) rest
    | '\'' :: rest => literalText? rest
    | _ => none
  read.map (fun r => (String.ofList r.1, r.2))

/-! ## Keys -/

/-- Reads one key: bare, or a text of one line. -/
def key? (s : List Char) : Option (String × List Char) :=
  match s with
  | '"' :: rest => (basicText? (rest.length + 1) rest).map (fun r => (String.ofList r.1, r.2))
  | '\'' :: rest => (literalText? rest).map (fun r => (String.ofList r.1, r.2))
  | _ =>
    let bare := s.takeWhile isBareKeyChar
    if bare.isEmpty then none else some (String.ofList bare, s.drop bare.length)

/-- Reads keys with points between them, and blanks around each. -/
def keys? : Nat → Reader (List String)
  | 0, _ => none
  | fuel + 1, s => do
    let (key, rest) ← key? (skipSpace s)
    match skipSpace rest with
    | '.' :: rest =>
      let (keys, rest) ← keys? fuel rest
      return (key :: keys, rest)
    | rest => return ([key], rest)

/-- Reads a path, which is refused if it has too many keys. -/
def path? (s : List Char) : Option (List String × List Char) :=
  (keys? (s.length + 1) s).filter (fun r => r.1.length ≤ maxLevels)

/-! ## Numbers, dates and times -/

/-- Digits with single underscores between them at will: the digits without the underscores, and the rest. An underscore without
a digit after it is not read. -/
def moreDigits (isDigit : Char → Bool) : List Char → List Char × List Char
  | [] => ([], [])
  | c :: rest =>
    if isDigit c then
      let (digits, after) := moreDigits isDigit rest
      (c :: digits, after)
    else if c == '_' && rest.head?.any isDigit then moreDigits isDigit rest
    else ([], c :: rest)

/-- Reads a digit and those after it. -/
def digits? (isDigit : Char → Bool) (s : List Char) : Option (List Char × List Char) :=
  if s.head?.any isDigit then some (moreDigits isDigit s) else none

/-- Reads a decimal whole number: a sign at will, and digits without a zero in front. -/
def decimal? (s : List Char) : Option ((Bool × List Char) × List Char) :=
  let (negative, rest) := match s with
    | '-' :: rest => (true, rest)
    | '+' :: rest => (false, rest)
    | _ => (false, s)
  match rest with
  | '0' :: rest => some ((negative, ['0']), rest)
  | rest => (digits? Char.isDigit rest).map (fun r => ((negative, r.1), r.2))

/-- The largest integer of a document. -/
def maxInteger : Nat := Number.twoPow 63 - 1

/-- Reads an integer in base sixteen, eight or two, after its mark. -/
def radixInteger? (base : Nat) (s : List Char) : Option (Value × List Char) := do
  let isDigit := fun c => (hexValue? c).any (· < base)
  let (digits, rest) ← digits? isDigit s
  let n := digits.foldl (fun n c => base * n + (hexValue? c).getD 0) 0
  if n ≤ maxInteger then some (.integer n, rest) else none

/-- Reads an integer. -/
def integer? (s : List Char) : Option (Value × List Char) :=
  match s with
  | '0' :: 'x' :: rest => radixInteger? 16 rest
  | '0' :: 'o' :: rest => radixInteger? 8 rest
  | '0' :: 'b' :: rest => radixInteger? 2 rest
  | _ => do
    let ((negative, digits), rest) ← decimal? s
    let n := Number.digitsToNat digits
    if negative && n ≤ maxInteger + 1 then some (.integer (-(n : Int)), rest)
    else if !negative && n ≤ maxInteger then some (.integer n, rest)
    else none

/-- Reads the exponent of a float, which may have zeros in front. -/
def exponent? (s : List Char) : Option (Int × List Char) := do
  let rest ← match s with
    | 'e' :: rest => some rest
    | 'E' :: rest => some rest
    | _ => none
  let (negative, rest) := match rest with
    | '-' :: rest => (true, rest)
    | '+' :: rest => (false, rest)
    | _ => (false, rest)
  let (digits, rest) ← digits? Char.isDigit rest
  let n : Int := Number.digitsToNat digits
  return (if negative then -n else n, rest)

/-- Reads a float: a whole number with a fraction, an exponent or both, or an infinity or no number. A number beyond all floats is
refused above, not below. -/
def float? (s : List Char) : Option (Value × List Char) :=
  let (negative, body) := match s with
    | '-' :: rest => (true, rest)
    | '+' :: rest => (false, rest)
    | _ => (false, s)
  if "inf".toList.isPrefixOf body then some (.float (Number.signed negative (1.0 / 0.0)), body.drop 3)
  else if "nan".toList.isPrefixOf body then some (.float (Number.signed negative (0.0 / 0.0)), body.drop 3)
  else do
    let ((negative, whole), rest) ← decimal? s
    let (written, rest) ← (match rest with
      | '.' :: rest => do
        let (fraction, rest) ← digits? Char.isDigit rest
        match exponent? rest with
        | some (exponent, rest) => some ((⟨whole, fraction, exponent⟩ : Number.Written), rest)
        | none => some (⟨whole, fraction, 0⟩, rest)
      | rest => (exponent? rest).map (fun e => (⟨whole, [], e.1⟩, e.2)))
    let x := Number.signed negative written.toFloat
    if x.isInf && !negative then none else some (.float x, rest)

/-- Reads so many digits. -/
def fixedDigits? (count : Nat) (s : List Char) : Option (Nat × List Char) :=
  let digits := s.take count
  if digits.length == count && digits.all Char.isDigit then some (Number.digitsToNat digits, s.drop count) else none

/-- Reads a character. -/
def char? (c : Char) (s : List Char) : Option (List Char) :=
  match s with
  | d :: rest => if d == c then some rest else none
  | [] => none

/-- The days of a month. -/
def daysIn (year month : Nat) : Nat :=
  if month == 2 then (if year % 4 == 0 && (year % 100 != 0 || year % 400 == 0) then 29 else 28)
  else if month == 4 || month == 6 || month == 9 || month == 11 then 30 else 31

/-- The rest of a text after a date. -/
def afterDate? (s : List Char) : Option (List Char) := do
  let (year, s) ← fixedDigits? 4 s
  let s ← char? '-' s
  let (month, s) ← fixedDigits? 2 s
  let s ← char? '-' s
  let (day, s) ← fixedDigits? 2 s
  if 1 ≤ month && month ≤ 12 && 1 ≤ day && day ≤ daysIn year month then some s else none

/-- The rest of a text after a time of day. -/
def afterTime? (s : List Char) : Option (List Char) := do
  let (hour, s) ← fixedDigits? 2 s
  let s ← char? ':' s
  let (minute, s) ← fixedDigits? 2 s
  let s ← char? ':' s
  let (second, s) ← fixedDigits? 2 s
  if 24 ≤ hour || 60 ≤ minute || 61 ≤ second then none
  else match s with
    | '.' :: rest =>
      let fraction := rest.takeWhile Char.isDigit
      if fraction.isEmpty then some s else some (rest.drop fraction.length)
    | _ => some s

/-- The rest of a text after an offset from UTC, if it starts with one; none for an offset that is out of range. -/
def afterOffset? (s : List Char) : Option (List Char) :=
  match s with
  | 'Z' :: rest => some rest
  | 'z' :: rest => some rest
  | c :: rest =>
    if c == '+' || c == '-' then do
      let (hour, rest) ← fixedDigits? 2 rest
      let rest ← char? ':' rest
      let (minute, rest) ← fixedDigits? 2 rest
      if hour < 24 && minute < 60 then some rest else none
    else some s
  | [] => some s

/-- Reads a date, a time, or both with an offset at will. -/
def dateTime? (s : List Char) : Option (Value × List Char) :=
  match afterDate? s with
  | none => (afterTime? s).map (fun rest => (.dateTime, rest))
  | some afterDate =>
    match afterDate with
    | c :: rest =>
      if c == 'T' || c == 't' || c == ' ' then
        match afterTime? rest with
        | some rest => (afterOffset? rest).map (fun rest => (.dateTime, rest))
        | none => some (.dateTime, afterDate)
      else some (.dateTime, afterDate)
    | [] => some (.dateTime, afterDate)

/-- Reads a value that is neither an array nor an inline table. -/
def scalar? (s : List Char) : Option (Value × List Char) :=
  if "true".toList.isPrefixOf s then some (.boolean true, s.drop 4)
  else if "false".toList.isPrefixOf s then some (.boolean false, s.drop 5)
  else if s.head? == some '"' || s.head? == some '\'' then (text? s).map (fun r => (.text r.1, r.2))
  else match dateTime? s with
    | some r => some r
    | none =>
      match float? s with
      | some r => some r
      | none => integer? s

/-! ## Arrays and inline tables -/

/-- What is looked for next: a value, the items of an array, or the assignments of an inline table. -/
inductive Expecting where
  | value | items | assignments

/-- Reads what is expected, with so many `levels` left for arrays and inline tables: values, each with its path in an inline table.
A value is the one entry of its reading. -/
def read : Nat → Nat → Expecting → List Char → Option (List (List String × Value) × List Char)
  | 0, _, _, _ => none
  | fuel + 1, levels, .value, s =>
    match s, levels with
    | '[' :: _, 0 => none
    | '\x7b' :: _, 0 => none
    | '[' :: rest, levels + 1 => do
      let (items, rest) ← read fuel levels .items rest
      return ([([], .array (items.map Prod.snd))], rest)
    | '\x7b' :: rest, levels + 1 =>
      match skipSpace rest with
      | '\x7d' :: rest => some ([([], .table [])], rest)
      | _ => do
        let (assignments, rest) ← read fuel levels .assignments rest
        let table ← inlineTable? assignments
        return ([([], table)], rest)
    | _, _ => (scalar? s).map (fun r => ([([], r.1)], r.2))
  | fuel + 1, levels, .items, s =>
    let s := skipLines (s.length + 1) s
    match s with
    | ']' :: rest => some ([], rest)
    | _ => do
      let (item, rest) ← read fuel levels .value s
      match skipLines (rest.length + 1) rest with
      | ']' :: rest => return (item, rest)
      | ',' :: rest =>
        let (items, rest) ← read fuel levels .items rest
        return (item ++ items, rest)
      | _ => none
  | fuel + 1, levels, .assignments, s => do
    let (path, rest) ← path? s
    let rest ← char? '=' rest
    let (value, rest) ← read fuel levels .value (skipSpace rest)
    let assignment := value.map (fun v => (path, v.2))
    match skipSpace rest with
    | '\x7d' :: rest => return (assignment, rest)
    | ',' :: rest =>
      let (assignments, rest) ← read fuel levels .assignments rest
      return (assignment ++ assignments, rest)
    | _ => none

/-- Reads a value. -/
def value? (s : List Char) : Option (Value × List Char) :=
  match read (2 * s.length + 2) maxLevels .value s with
  | some ([(_, v)], rest) => some (v, rest)
  | _ => none

/-! ## Documents -/

/-- Reads a statement. -/
def statement? (s : List Char) : Option (Statement × List Char) :=
  match s with
  | '[' :: '[' :: rest => do
    let (path, rest) ← path? rest
    let rest ← char? ']' rest
    let rest ← char? ']' rest
    return (.tablesHeader path, rest)
  | '[' :: rest => do
    let (path, rest) ← path? rest
    let rest ← char? ']' rest
    return (.header path, rest)
  | _ => do
    let (path, rest) ← path? s
    let rest ← char? '=' rest
    let (v, rest) ← value? (skipSpace rest)
    return (.assign path v, rest)

/-- Reads the statements of a document, each of which ends its line but for a comment. -/
def statements? : Nat → List Char → Option (List Statement)
  | 0, _ => none
  | fuel + 1, s =>
    match skipLines (s.length + 1) s with
    | [] => some []
    | s => do
      let (statement, rest) ← statement? s
      match skipComment (skipSpace rest) with
      | [] => return [statement]
      | rest =>
        let rest ← afterLineBreak? rest
        let statements ← statements? fuel rest
        return statement :: statements

/-- The table of a document. A byte order mark may stand at its beginning. -/
def ofText? (text : String) : Option (List (String × Value)) :=
  let s := match text.toList with
    | c :: rest => if c.toNat == 0xFEFF then rest else c :: rest
    | [] => []
  (statements? (s.length + 1) s).bind ofStatements?

end DaxPlan.Toml
