import DaxPlan.Proofs.Json.Numbers

/-!
# JSON text is read back

What is written of a value is read as that value (`Printed.ofText?_toText`), as a value of any level is from its text whatever
stands behind it (`ReadAs`). Only a number that is not whole may change: one with many digits may be read as a neighbour of the one
that was written.
-/

namespace DaxPlan.Json

open Number

/-! ## Layout -/

/-- A line break with its indentation is skipped. -/
theorem skipSpace_lineBreak (level : Nat) (s : List Char) : skipSpace ((lineBreak level).toList ++ s) = skipSpace s := by
  have hblanks : ∀ n, skipSpace (List.replicate n ' ' ++ s) = skipSpace s := by
    intro n
    induction n with
    | zero => rfl
    | succ n ih => exact ih
  rw [lineBreak, String.toList_ofList]
  exact hblanks (2 * level)

/-- Blanks in front of a value are passed over. -/
theorem read_value_congr {s t : List Char} (h : skipSpace s = skipSpace t) (fuel : Nat) :
    read fuel .value s = read fuel .value t := by
  cases fuel with
  | zero => rfl
  | succ fuel => rw [read, read, h]

/-- What stands behind the first item: the others, each on a line of its own, and the closing bracket. -/
def following (level : Nat) (closing : Char) (items : List (List Char)) (rest : List Char) : List Char :=
  items.flatMap (fun item => ',' :: ((lineBreak (level + 1)).toList ++ item)) ++ ((lineBreak level).toList ++ closing :: rest)

/-- Behind the last item stands the closing bracket. -/
theorem following_nil (level : Nat) (closing : Char) (rest : List Char) :
    following level closing [] rest = (lineBreak level).toList ++ closing :: rest := rfl

/-- Behind an item stands a comma and the next one. -/
theorem following_cons (level : Nat) (closing : Char) (item : List Char) (items : List (List Char)) (rest : List Char) :
    following level closing (item :: items) rest =
      ',' :: ((lineBreak (level + 1)).toList ++ (item ++ following level closing items rest)) := by
  simp [following]

/-- What stands behind an item ends a number. -/
theorem stops_following (level : Nat) (closing : Char) (items : List (List Char)) (rest : List Char) :
    Stops (following level closing items rest) := by
  cases items with
  | nil =>
    rw [following_nil, lineBreak, String.toList_ofList]
    exact stops_cons (by decide) (by decide)
  | cons item items =>
    rw [following_cons]
    exact stops_cons (by decide) (by decide)

/-- Enclosed items are written from the opening bracket on: the first one, and what follows it. -/
theorem toList_enclose (opening closing : Char) (level : Nat) (item : String) (items : List String) (rest : List Char) :
    (enclose (String.singleton opening) (String.singleton closing) level (item :: items)).toList ++ rest =
      opening :: ((lineBreak (level + 1)).toList ++ (item.toList ++ following level closing (items.map String.toList) rest)) := by
  have hjoin : ∀ (sep x : List Char) (xs : List (List Char)),
      sep.intercalate (x :: xs) = x ++ xs.flatMap (fun y => sep ++ y) := by
    intro sep x xs
    induction xs generalizing x with
    | nil => simp
    | cons y xs ih => rw [List.intercalate_cons_cons, ih]; simp
  simp [enclose, hjoin, following, List.flatMap_map]

/-! ## Values -/

/-- A value's text at any level is read as another value, whatever stands behind it. -/
def ReadAs (v w : Json Float) : Prop :=
  ∀ (level fuel : Nat) (rest : List Char), Stops rest → ((render level v).toList ++ rest).length ≤ fuel →
    read fuel .value ((render level v).toList ++ rest) = some ([(none, w)], rest)

/-- The signs that a value which is not a text, an array or an object does not start with. -/
def opens : List Char := [' ', '\t', '\n', '\r', '"', '[', '\x7b']

/-- Reads a word that stands for a value, or a number. -/
def plain (s : List Char) : Option (Read × List Char) :=
  match afterWord? "null" s, afterWord? "true" s, afterWord? "false" s with
  | some rest, _, _ => some ([(none, .null)], rest)
  | _, some rest, _ => some ([(none, .bool true)], rest)
  | _, _, some rest => some ([(none, .bool false)], rest)
  | none, none, none => (number? s).map (fun n => ([(none, n.1)], n.2))

/-- A value that opens neither an array nor an object nor a text is read as a word or a number. -/
theorem read_plain {c : Char} (hc : c ∉ opens) (fuel : Nat) (s : List Char) :
    read (fuel + 1) .value (c :: s) = plain (c :: s) := by
  simp only [opens, List.mem_cons, List.not_mem_nil, or_false, not_or] at hc
  have hskip : skipSpace (c :: s) = c :: s := by
    simp [skipSpace, isSpace, hc]
  rw [read, hskip]
  split
  · simp_all
  · simp_all
  · simp_all
  · simp_all
  · rfl

/-- A word is read where it stands. -/
theorem afterWord?_append (word : String) (s : List Char) : afterWord? word (word.toList ++ s) = some s := by
  rw [afterWord?, if_pos (by simp), ← String.length_toList, List.drop_left]

/-- The word `null` is not read at another letter. -/
theorem afterWord?_null {c : Char} (hc : c ≠ 'n') (s : List Char) : afterWord? "null" (c :: s) = none := by
  simp [afterWord?, Ne.symm hc]

/-- The word `true` is not read at another letter. -/
theorem afterWord?_true {c : Char} (hc : c ≠ 't') (s : List Char) : afterWord? "true" (c :: s) = none := by
  simp [afterWord?, Ne.symm hc]

/-- The word `false` is not read at another letter. -/
theorem afterWord?_false {c : Char} (hc : c ≠ 'f') (s : List Char) : afterWord? "false" (c :: s) = none := by
  simp [afterWord?, Ne.symm hc]

/-- The word `null` is read as that value. -/
theorem plain_null (rest : List Char) : plain ("null".toList ++ rest) = some ([(none, .null)], rest) := by
  rw [plain, afterWord?_append]

/-- The word `true` is read as that value. -/
theorem plain_true (rest : List Char) : plain ("true".toList ++ rest) = some ([(none, .bool true)], rest) := by
  have hnull : afterWord? "null" ("true".toList ++ rest) = none := afterWord?_null (by decide) _
  rw [plain, hnull, afterWord?_append]

/-- The word `false` is read as that value. -/
theorem plain_false (rest : List Char) : plain ("false".toList ++ rest) = some ([(none, .bool false)], rest) := by
  have hnull : afterWord? "null" ("false".toList ++ rest) = none := afterWord?_null (by decide) _
  have htrue : afterWord? "true" ("false".toList ++ rest) = none := afterWord?_true (by decide) _
  rw [plain, hnull, htrue, afterWord?_append]

/-- What starts with none of the letters of a word is read as a number. -/
theorem plain_number {c : Char} (hc : c ∉ ['n', 't', 'f']) (s : List Char) :
    plain (c :: s) = (number? (c :: s)).map (fun n => ([(none, n.1)], n.2)) := by
  simp only [List.mem_cons, List.not_mem_nil, or_false, not_or] at hc
  rw [plain, afterWord?_null hc.1, afterWord?_true hc.2.1, afterWord?_false hc.2.2]

/-- A value whose text is a word or a number is read as the word or the number is. -/
theorem readAs_of_plain {v w : Json Float} {text : String} (htext : ∀ level, render level v = text)
    (hopens : ∃ c t, text.toList = c :: t ∧ c ∉ opens)
    (h : ∀ rest, Stops rest → plain (text.toList ++ rest) = some ([(none, w)], rest)) : ReadAs v w := by
  intro level fuel rest hrest hfuel
  obtain ⟨c, t, ht, hc⟩ := hopens
  have hplain := h rest hrest
  rw [ht] at hplain
  rw [htext, ht] at hfuel ⊢
  cases fuel with
  | zero => cases hfuel
  | succ fuel => rw [List.cons_append, read_plain hc, ← List.cons_append, hplain]

/-- The value `null` is read back. -/
theorem readAs_null : ReadAs .null .null :=
  readAs_of_plain (fun _ => by rw [render]) ⟨'n', ['u', 'l', 'l'], by decide, by decide⟩ (fun rest _ => plain_null rest)

/-- Truth values are read back. -/
theorem readAs_bool (b : Bool) : ReadAs (.bool b) (.bool b) := by
  cases b with
  | true =>
    exact readAs_of_plain (fun _ => by rw [render]; rfl) ⟨'t', ['r', 'u', 'e'], by decide, by decide⟩
      (fun rest _ => plain_true rest)
  | false =>
    exact readAs_of_plain (fun _ => by rw [render]; rfl) ⟨'f', ['a', 'l', 's', 'e'], by decide, by decide⟩
      (fun rest _ => plain_false rest)

/-- A number starts with its sign or a digit. -/
theorem number?_head {s : List Char} {r : Json Float × List Char} (h : number? s = some r) :
    ∃ c t, s = c :: t ∧ (c = '-' ∨ c.isDigit = true) := by
  cases s with
  | nil => simp [number?] at h
  | cons c t =>
    refine ⟨c, t, rfl, ?_⟩
    by_contra hc
    rw [not_or] at hc
    rw [number?_unsigned (by simpa using hc.1), unsigned?] at h
    simp [hc.2] at h

/-- A value that is written like a number is read as that number, whatever stands behind it. -/
theorem readAs_of_number {v w : Json Float} {text : String} (htext : ∀ level, render level v = text)
    (h : number? text.toList = some (w, [])) : ReadAs v w := by
  obtain ⟨c, t, ht, hc⟩ := number?_head h
  have hfirst : c ∉ 'n' :: 't' :: 'f' :: opens := by
    intro hmem
    simp only [opens, List.mem_cons, List.not_mem_nil, or_false] at hmem
    rcases hmem with rfl | rfl | rfl | rfl | rfl | rfl | rfl | rfl | rfl | rfl <;> exact absurd hc (by decide)
  refine readAs_of_plain htext ⟨c, t, ht, fun hmem => hfirst (by simp [hmem])⟩ (fun rest hrest => ?_)
  have hnumber := number?_append h hrest
  rw [ht] at hnumber
  rw [ht, List.cons_append, plain_number (fun hmem => hfirst (by simp_all)), ← List.cons_append, hnumber]
  rfl

/-- Texts are read back. -/
theorem readAs_text (s : String) : ReadAs (.text s) (.text s) := by
  intro level fuel rest _ hfuel
  cases fuel with
  | zero => simp [render, toList_quoteText] at hfuel
  | succ fuel =>
    rw [render, toList_quoteText, List.cons_append, List.append_assoc]
    change (textLiteral? _).map _ = _
    rw [List.singleton_append, textLiteral?_escaped]
    rfl

/-- Items are written one by one. -/
theorem renderItems_eq_map (level : Nat) (items : List (Json Float)) : renderItems level items = items.map (render level) := by
  induction items with
  | nil => rfl
  | cons item items ih => rw [renderItems, ih, List.map_cons]

/-- Fields are written one by one, each behind its name. -/
theorem renderFields_eq_map (level : Nat) (fields : List (String × Json Float)) :
    renderFields level fields = fields.map (fun f => quoteText f.1 ++ ": " ++ render level f.2) := by
  induction fields with
  | nil => rfl
  | cons f fields ih => rw [renderFields, ih, List.map_cons]

/-- The texts of items at a level. -/
def itemTexts (level : Nat) (items : List (Json Float)) : List (List Char) := items.map (fun v => (render level v).toList)

/-- The text of a field at a level. -/
def fieldText (level : Nat) (f : String × Json Float) : List Char :=
  (quoteText f.1).toList ++ ':' :: ' ' :: (render level f.2).toList

/-- A line break is a character at least. -/
theorem length_lineBreak_pos (level : Nat) : 0 < (lineBreak level).toList.length := by
  simp [lineBreak]

/-- A value on a line of its own is read up to what follows. -/
theorem ReadAs.on_line {v w : Json Float} (h : ReadAs v w) {level fuel : Nat} {t : List Char} (ht : Stops t)
    (hfuel : ((lineBreak level).toList ++ ((render level v).toList ++ t)).length ≤ fuel + 1) :
    read fuel .value ((lineBreak level).toList ++ ((render level v).toList ++ t)) = some ([(none, w)], t) := by
  have hbreak := length_lineBreak_pos level
  rw [List.length_append] at hfuel
  rw [read_value_congr (skipSpace_lineBreak _ _)]
  exact h level fuel t ht (by omega)

/-- The items of an array are read up to its closing bracket. -/
theorem read_items {level fuel : Nat} {rest : List Char} {f : Json Float → Json Float} {item : Json Float}
    (items : List (Json Float)) (hitems : ∀ v ∈ item :: items, ReadAs v (f v))
    (hfuel : ((lineBreak (level + 1)).toList ++
      ((render (level + 1) item).toList ++ following level ']' (itemTexts (level + 1) items) rest)).length ≤ fuel) :
    read fuel .items ((lineBreak (level + 1)).toList ++
      ((render (level + 1) item).toList ++ following level ']' (itemTexts (level + 1) items) rest)) =
      some ((item :: items).map (fun v => (none, f v)), rest) := by
  induction items generalizing item fuel with
  | nil =>
    have hbreak := length_lineBreak_pos (level + 1)
    rw [List.length_append] at hfuel
    obtain ⟨fuel, rfl⟩ := Nat.exists_eq_add_one.mpr (show 0 < fuel by omega)
    rw [read, (hitems item (by simp)).on_line (stops_following _ _ _ _) (by rw [List.length_append]; exact hfuel)]
    simp only [itemTexts, List.map_nil, following_nil, Option.bind_eq_bind, Option.bind_some, skipSpace_lineBreak]
    rfl
  | cons next items ih =>
    have hbreak := length_lineBreak_pos (level + 1)
    rw [List.length_append] at hfuel
    obtain ⟨fuel, rfl⟩ := Nat.exists_eq_add_one.mpr (show 0 < fuel by omega)
    rw [read, (hitems item (by simp)).on_line (stops_following _ _ _ _) (by rw [List.length_append]; exact hfuel)]
    simp only [itemTexts, List.map_cons, following_cons, List.length_cons, List.length_append] at hfuel ⊢
    have hrest := @ih fuel next (fun v hv => hitems v (List.mem_cons_of_mem item hv)) (by
      simp only [itemTexts, List.length_append]
      omega)
    change Option.bind (read fuel .items _) _ = _
    rw [← itemTexts, hrest]
    rfl

/-- The first field is read up to what follows. -/
theorem read_fields_step {level fuel : Nat} {t : List Char} {f : String × Json Float} {w : Json Float} (h : ReadAs f.2 w)
    (ht : Stops t) (hfuel : (fieldText level f ++ t).length ≤ fuel + 1) :
    read (fuel + 1) .fields ((lineBreak level).toList ++ (fieldText level f ++ t)) =
      match skipSpace t with
      | '\x7d' :: rest => some ([(some f.1, w)], rest)
      | ',' :: rest => (read fuel .fields rest).bind (fun r => some ((some f.1, w) :: r.1, r.2))
      | _ => none := by
  have htext : fieldText level f ++ t =
      '"' :: (f.1.toList.flatMap escapeChar ++ '"' :: ':' :: ' ' :: ((render level f.2).toList ++ t)) := by
    simp [fieldText, toList_quoteText]
  have hvalue : read fuel .value (' ' :: ((render level f.2).toList ++ t)) = some ([(none, w)], t) := by
    have hblank : skipSpace (' ' :: ((render level f.2).toList ++ t)) = skipSpace ((render level f.2).toList ++ t) := rfl
    rw [read_value_congr hblank]
    refine h level fuel t ht ?_
    rw [htext] at hfuel
    simp only [List.length_cons, List.length_append] at hfuel ⊢
    omega
  rw [read, skipSpace_lineBreak, htext]
  change Option.bind (textLiteral? _) _ = _
  rw [textLiteral?_escaped]
  change Option.bind (read fuel .value _) _ = _
  rw [hvalue]
  rfl

/-- The fields of an object are read up to its closing bracket. -/
theorem read_fields {level fuel : Nat} {rest : List Char} {change : Json Float → Json Float} {f : String × Json Float}
    (fields : List (String × Json Float)) (hfields : ∀ g ∈ f :: fields, ReadAs g.2 (change g.2))
    (hfuel : (fieldText (level + 1) f ++ following level '\x7d' (fields.map (fieldText (level + 1))) rest).length ≤ fuel) :
    read fuel .fields ((lineBreak (level + 1)).toList ++
      (fieldText (level + 1) f ++ following level '\x7d' (fields.map (fieldText (level + 1))) rest)) =
      some ((f :: fields).map (fun g => (some g.1, change g.2)), rest) := by
  have hquoted : ∀ g, 0 < (fieldText (level + 1) g).length := fun g => by simp [fieldText, toList_quoteText]
  induction fields generalizing f fuel with
  | nil =>
    have hf := hquoted f
    obtain ⟨fuel, rfl⟩ := Nat.exists_eq_add_one.mpr (show 0 < fuel by rw [List.length_append] at hfuel; omega)
    rw [read_fields_step (hfields f (by simp)) (stops_following _ _ _ _) hfuel, List.map_nil, following_nil, skipSpace_lineBreak]
    rfl
  | cons next fields ih =>
    have hf := hquoted f
    obtain ⟨fuel, rfl⟩ := Nat.exists_eq_add_one.mpr (show 0 < fuel by rw [List.length_append] at hfuel; omega)
    rw [read_fields_step (hfields f (by simp)) (stops_following _ _ _ _) hfuel]
    simp only [List.map_cons, following_cons, List.length_cons, List.length_append] at hfuel ⊢
    have hrest := @ih fuel next (fun g hg => hfields g (List.mem_cons_of_mem f hg)) (by
      simp only [List.length_append]
      omega)
    change Option.bind (read fuel .fields _) _ = _
    rw [hrest]
    rfl

/-- No value starts with the closing bracket of an array. -/
theorem read_value_closing {s t : List Char} (h : skipSpace s = ']' :: t) (fuel : Nat) : read fuel .value s = none := by
  cases fuel with
  | zero => rfl
  | succ fuel =>
    rw [read_value_congr (t := ']' :: t) (by rw [h]; rfl), read_plain (by decide), plain_number (by decide)]
    rfl

/-- An array is read if it is not empty and its items are. -/
theorem read_array {fuel : Nat} {s rest : List Char} {r : Read} (hitems : read fuel .items s = some (r, rest))
    (hopen : ∀ t, skipSpace s ≠ ']' :: t) : read (fuel + 1) .value ('[' :: s) = some ([(none, .array (r.map Prod.snd))], rest) := by
  have hskip : skipSpace ('[' :: s) = '[' :: s := rfl
  simp only [read, hskip]
  rw [hitems]
  rfl

/-- An array is read back item by item. -/
theorem readAs_array {items : List (Json Float)} {f : Json Float → Json Float} (h : ∀ v ∈ items, ReadAs v (f v)) :
    ReadAs (.array items) (.array (items.map f)) := by
  intro level fuel rest _ hfuel
  cases items with
  | nil =>
    have htext : (render level (.array [])).toList = ['[', ']'] := by simp [render, renderItems, enclose]
    rw [htext] at hfuel ⊢
    cases fuel with
    | zero => simp at hfuel
    | succ fuel => rfl
  | cons item items =>
    have htext : (render level (.array (item :: items))).toList ++ rest = '[' :: ((lineBreak (level + 1)).toList ++
        ((render (level + 1) item).toList ++ following level ']' (itemTexts (level + 1) items) rest)) := by
      have henclose := toList_enclose '[' ']' level (render (level + 1) item) (items.map (render (level + 1))) rest
      rw [List.map_map] at henclose
      rw [render, renderItems_eq_map, List.map_cons]
      exact henclose
    rw [htext, List.length_cons] at hfuel
    obtain ⟨fuel, rfl⟩ := Nat.exists_eq_add_one.mpr (show 0 < fuel by omega)
    have hread := read_items items h (Nat.le_of_succ_le_succ hfuel)
    have hfirst := (h item (by simp)).on_line (stops_following level ']' (itemTexts (level + 1) items) rest)
      (Nat.le_succ_of_le (Nat.le_of_succ_le_succ hfuel))
    rw [htext, read_array hread (fun t ht => by simp [read_value_closing ht] at hfirst), List.map_map]
    simp [Function.comp_def]

/-- An object is read if it is not empty and its fields are. -/
theorem read_object {fuel : Nat} {s rest : List Char} {r : Read} (hfields : read fuel .fields s = some (r, rest))
    (hopen : ∀ t, skipSpace s ≠ '\x7d' :: t) : read (fuel + 1) .value ('\x7b' :: s) = some ([(none, objectOf r)], rest) := by
  have hskip : skipSpace ('\x7b' :: s) = '\x7b' :: s := rfl
  simp only [read, hskip]
  rw [hfields]
  rfl

/-- Fields that were read with their names make an object. -/
theorem objectOf_named (change : Json Float → Json Float) (fields : List (String × Json Float)) :
    objectOf (fields.map (fun f => (some f.1, change f.2))) = .object (fields.map (fun f => (f.1, change f.2))) := by
  have hnames : (fields.map (fun f => (some f.1, change f.2))).mapM (fun f => f.1.map (·, f.2)) =
      some (fields.map (fun f => (f.1, change f.2))) := by
    induction fields with
    | nil => rfl
    | cons f fields ih => simp [List.mapM_cons, ih]
  rw [objectOf, hnames]

/-- An object is read back field by field. -/
theorem readAs_object {fields : List (String × Json Float)} {change : Json Float → Json Float}
    (h : ∀ f ∈ fields, ReadAs f.2 (change f.2)) : ReadAs (.object fields) (.object (fields.map (fun f => (f.1, change f.2)))) := by
  intro level fuel rest _ hfuel
  cases fields with
  | nil =>
    have htext : (render level (.object [])).toList = ['\x7b', '\x7d'] := by simp [render, renderFields, enclose]
    rw [htext] at hfuel ⊢
    cases fuel with
    | zero => simp at hfuel
    | succ fuel => rfl
  | cons f fields =>
    have htext : (render level (.object (f :: fields))).toList ++ rest = '\x7b' :: ((lineBreak (level + 1)).toList ++
        (fieldText (level + 1) f ++ following level '\x7d' (fields.map (fieldText (level + 1))) rest)) := by
      have hfield : ∀ g : String × Json Float,
          (quoteText g.1 ++ ": " ++ render (level + 1) g.2).toList = fieldText (level + 1) g := by
        intro g
        simp [fieldText]
      have henclose := toList_enclose '\x7b' '\x7d' level (quoteText f.1 ++ ": " ++ render (level + 1) f.2)
        (fields.map (fun g => quoteText g.1 ++ ": " ++ render (level + 1) g.2)) rest
      rw [List.map_map, hfield, show String.toList ∘ _ = fieldText (level + 1) from funext hfield] at henclose
      rw [render, renderFields_eq_map, List.map_cons]
      exact henclose
    rw [htext, List.length_cons, List.length_append] at hfuel
    obtain ⟨fuel, rfl⟩ := Nat.exists_eq_add_one.mpr (show 0 < fuel by omega)
    rw [htext, read_object (read_fields fields h (by omega)) (fun t ht => ?_), objectOf_named]
    rw [skipSpace_lineBreak, fieldText, toList_quoteText] at ht
    exact absurd (List.cons.inj ht).1 (by decide)

/-! ## Values that can be printed -/

section Map

variable {α β : Type} (f : α → β)

mutual

/-- A value with its numbers changed. -/
def map : Json α → Json β
  | .null => .null
  | .bool b => .bool b
  | .int n => .int n
  | .number x => .number (f x)
  | .text s => .text s
  | .array items => .array (mapItems items)
  | .object fields => .object (mapFields fields)
  | .unreadable => .unreadable

/-- The items of an array with their numbers changed. -/
def mapItems : List (Json α) → List (Json β)
  | [] => []
  | item :: rest => map item :: mapItems rest

/-- The fields of an object with their numbers changed. -/
def mapFields : List (String × Json α) → List (String × Json β)
  | [] => []
  | (name, value) :: rest => (name, map value) :: mapFields rest

end

/-- The numbers of items are changed item by item. -/
theorem mapItems_eq_map (items : List (Json α)) : mapItems f items = items.map (map f) := by
  induction items with
  | nil => rfl
  | cons item items ih => rw [mapItems, ih, List.map_cons]

/-- The numbers of fields are changed field by field. -/
theorem mapFields_eq_map (fields : List (String × Json α)) : mapFields f fields = fields.map (fun g => (g.1, map f g.2)) := by
  induction fields with
  | nil => rfl
  | cons g fields ih => rw [mapFields, ih, List.map_cons]

/-- The numbers of an array are changed item by item. -/
theorem map_array (items : List (Json α)) : map f (.array items) = .array (items.map (map f)) := by rw [map, mapItems_eq_map]

/-- The numbers of an object are changed field by field. -/
theorem map_object (fields : List (String × Json α)) :
    map f (.object fields) = .object (fields.map (fun g => (g.1, map f g.2))) := by
  rw [map, mapFields_eq_map]

end Map

/-- The text of a number is read as that number. -/
def NumberReadBack (x : Float) : Prop := number? (shortestText numberFormat x).toList = some (.number x, [])

/-- A number that is read back is itself when it is read again. -/
theorem NumberReadBack.reread_eq {x : Float} (h : NumberReadBack x) : reread x = x := by
  rw [reread, show number? _ = _ from h]

/-- A value that keeps to what the format of numbers can hold. -/
inductive Printed : Json Float → Prop where
  | null : Printed .null
  | bool (b : Bool) : Printed (.bool b)
  | int {n : Int} : -(twoPow 63 : Int) ≤ n → n < twoPow 64 → Printed (.int n)
  | number {x : Float} : x.isFinite = true → Printed (.number x)
  | text (s : String) : Printed (.text s)
  | array {items : List (Json Float)} : (∀ v ∈ items, Printed v) → Printed (.array items)
  | object {fields : List (String × Json Float)} : (∀ f ∈ fields, Printed f.2) → Printed (.object fields)

/-- A value is read back with its numbers as they are read again. -/
theorem Printed.readAs {v : Json Float} (h : Printed v) : ReadAs v (v.map reread) := by
  induction h with
  | null => exact readAs_null
  | bool b => exact readAs_bool b
  | int hlow hhigh => exact readAs_of_number (fun level => by rw [render]) (number?_int hlow hhigh)
  | number hx => exact readAs_of_number (fun level => by rw [render]) (number?_shortestText hx)
  | text s => exact readAs_text s
  | array _ ih => exact map_array reread _ ▸ readAs_array ih
  | object _ ih => exact map_object reread _ ▸ readAs_object ih

/-- What is written of a value is read as that value, its numbers as what their texts are read as. -/
theorem Printed.ofText?_toText {v : Json Float} (h : Printed v) : ofText? v.toText = some (v.map reread) := by
  have hread := h.readAs 0 (2 * v.toText.toList.length + 2) [] stops_nil (by
    rw [List.append_nil, toText]
    omega)
  rw [List.append_nil, ← toText] at hread
  simp only [ofText?, hread]
  rfl

end DaxPlan.Json
