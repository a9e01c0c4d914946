import DaxPlan.Proofs.Enrichment.Passes
import DaxPlan.Proofs.Query.References
import Mathlib.Data.Rat.Defs

/-!
# The tables of resolved lines

A storage engine row is given the first table quoted in its display text. Two readers have to agree on that: the one that finds
the identifiers of the line and puts display names in their places, and the one that finds the first quoted name in what comes
out. They do when display names are plain and no apostrophe is hidden in brackets before the first table (`Readable`): then the
table is the display name of the first table as written, or that table itself (`objectName_resolved`).

Where a line is not so the readers part (`objectName_apart`): a display name goes between apostrophes as it is, so its own
apostrophe ends it; a doubled apostrophe is still doubled when the resolver is asked; and a table within brackets is not asked
for at all.
-/

namespace DaxPlan

/-- An identifier stands in brackets. -/
def Identifier.isColumn : Identifier → Bool
  | table _ => false
  | column _ => true

namespace Resolver

open Text

/-- What is shown of an identifier: its display name, or the identifier as written. -/
def shown (resolver : Resolver) (i : Identifier) : List Char := (resolver.display? i).getD i.name

/-- Resolving a line from left to right: its identifiers, and what is made of it. -/
inductive Resolves (resolver : Resolver) : List Char → List Identifier → List Char → Prop where
  | nil : Resolves resolver [] [] []
  | table {name rest out : List Char} {is : List Identifier} :
      name ≠ [] → Paired name → Closes rest → Resolves resolver rest is out →
      Resolves resolver ('\'' :: (name ++ '\'' :: rest)) (.table name :: is)
        ('\'' :: (resolver.shown (.table name) ++ '\'' :: out))
  | column {name rest out : List Char} {is : List Identifier} :
      Resolves resolver rest is out →
      Resolves resolver ('[' :: (name ++ ']' :: rest)) (.column name :: is)
        ('[' :: (resolver.shown (.column name) ++ ']' :: out))
  | other {c : Char} {s out : List Char} {is : List Identifier} :
      name? (c :: s) = none → Resolves resolver s is out → Resolves resolver (c :: s) is (c :: out)

/-! ## Reading a line -/

/-- A line with display names in the place of identifiers, whether there are any or not. -/
def rendered (resolver : Resolver) (line : List Char) : List Char :=
  (pieces Identifier.read? 0 line).flatMap resolver.renderPiece

variable {resolver : Resolver} {i : Identifier} {is : List Identifier} {c : Char} {s line name rest out : List Char}

theorem renamed_table (written shown rest : List Char) :
    (Identifier.table written).renamed shown ++ rest = '\'' :: (shown ++ '\'' :: rest) := by
  simp [Identifier.renamed]

theorem renamed_column (written shown rest : List Char) :
    (Identifier.column written).renamed shown ++ rest = '[' :: (shown ++ ']' :: rest) := by
  simp [Identifier.renamed]

/-- An identifier at the front of a line is shown, and the rest is resolved in turn. -/
theorem resolve_identifier (resolver : Resolver) (i : Identifier)
    (h : Identifier.read? (i.renamed i.name ++ rest) = some (i, markedLength i.name)) :
    Identifier.all (i.renamed i.name ++ rest) = i :: Identifier.all rest ∧
      resolver.rendered (i.renamed i.name ++ rest) = i.renamed (resolver.shown i) ++ resolver.rendered rest := by
  have hlength : (i.renamed i.name).length = markedLength i.name := by
    cases i <;> simp [markedLength, Identifier.renamed, Identifier.name]
  have hpieces := pieces_found (by cases i <;> exact List.cons_ne_nil _ _) (hlength ▸ h)
  have hpiece : resolver.renderPiece (.found i (i.renamed i.name)) = i.renamed (resolver.shown i) := by
    rw [renderPiece, shown]
    cases resolver.display? i <;> rfl
  constructor
  · rw [Identifier.all, occurrences, hpieces]
    rfl
  · rw [rendered, hpieces, List.flatMap_cons, hpiece]
    rfl

theorem resolve_other (resolver : Resolver) (h : Identifier.read? (c :: s) = none) :
    Identifier.all (c :: s) = Identifier.all s ∧ resolver.rendered (c :: s) = c :: resolver.rendered s := by
  constructor
  · rw [Identifier.all, occurrences, pieces_other h]
    rfl
  · rw [rendered, pieces_other h]
    rfl

theorem Resolves.of_table (hread : name? ('\'' :: (name ++ '\'' :: rest)) = some (name, rest)) (hne : name ≠ [])
    (hname : Paired name) (hrest : Closes rest) (h : Resolves resolver rest (Identifier.all rest) (resolver.rendered rest)) :
    Resolves resolver ('\'' :: (name ++ '\'' :: rest)) (Identifier.all ('\'' :: (name ++ '\'' :: rest)))
      (resolver.rendered ('\'' :: (name ++ '\'' :: rest))) := by
  have hfound : Identifier.read? ((Identifier.table name).renamed name ++ rest) = some (.table name, markedLength name) := by
    rw [renamed_table, Identifier.read?, hread]
  obtain ⟨hall, hrendered⟩ := resolve_identifier resolver (.table name) hfound
  rw [Identifier.name, renamed_table] at hall hrendered
  rw [hall, hrendered, renamed_table]
  exact Resolves.table hne hname hrest h

theorem Resolves.of_column (hread : bracketed? ('[' :: (name ++ ']' :: rest)) = some (name, rest))
    (h : Resolves resolver rest (Identifier.all rest) (resolver.rendered rest)) :
    Resolves resolver ('[' :: (name ++ ']' :: rest)) (Identifier.all ('[' :: (name ++ ']' :: rest)))
      (resolver.rendered ('[' :: (name ++ ']' :: rest))) := by
  have hfound : Identifier.read? ((Identifier.column name).renamed name ++ rest) = some (.column name, markedLength name) := by
    rw [renamed_column, Identifier.read?, name?_of_ne (by decide), hread]
    rfl
  obtain ⟨hall, hrendered⟩ := resolve_identifier resolver (.column name) hfound
  rw [Identifier.name, renamed_column] at hall hrendered
  rw [hall, hrendered, renamed_column]
  exact Resolves.column h

/-- Every line is resolved from left to right. -/
theorem resolves (resolver : Resolver) (line : List Char) :
    Resolves resolver line (Identifier.all line) (resolver.rendered line) := by
  -- A read identifier may take any number of characters, hence the induction on the length.
  induction hlength : line.length using Nat.strongRecOn generalizing line with
  | ind length ih =>
    cases line with
    | nil => exact Resolves.nil
    | cons c s =>
      have hother : name? (c :: s) = none → bracketed? (c :: s) = none →
          Resolves resolver (c :: s) (Identifier.all (c :: s)) (resolver.rendered (c :: s)) := by
        intro hname hbracketed
        obtain ⟨hall, hrendered⟩ := resolve_other (c := c) (s := s) resolver
          (by rw [Identifier.read?, hname, hbracketed]; rfl)
        rw [hall, hrendered]
        exact Resolves.other hname (ih s.length (by rw [← hlength]; exact Nat.lt_succ_self _) s rfl)
      by_cases hc : c = '\''
      · subst hc
        obtain ⟨-, hnone⟩ | ⟨-, -, -, hnone⟩ | ⟨name, rest, rfl, hne, hname, hrest, hread⟩ := name?_cases s
        · exact hother hnone rfl
        · exact hother hnone rfl
        · refine Resolves.of_table hread hne hname hrest (ih rest.length ?_ rest rfl)
          rw [← hlength, List.length_cons, List.length_append, List.length_cons]
          omega
      · cases hbracketed : bracketed? (c :: s) with
        | none => exact hother (name?_of_ne hc s) hbracketed
        | some cut =>
          obtain ⟨name, rest⟩ := cut
          have hs := bracketed?_spec hbracketed
          rw [hs] at hbracketed hlength ⊢
          refine Resolves.of_column hbracketed (ih rest.length ?_ rest rfl)
          rw [← hlength, List.length_cons, List.length_append, List.length_cons]
          omega

namespace Resolves

/-- A line without an identifier that the resolver knows is left as it is. -/
theorem eq_line (h : Resolves resolver line is out) (hunknown : ∀ i ∈ is, resolver.display? i = none) : out = line := by
  induction h with
  | nil => rfl
  | table _ _ _ _ ih =>
    obtain ⟨hi, his⟩ := List.forall_mem_cons.mp hunknown
    rw [ih his, shown, hi]
    rfl
  | column _ ih =>
    obtain ⟨hi, his⟩ := List.forall_mem_cons.mp hunknown
    rw [ih his, shown, hi]
    rfl
  | other _ _ ih => rw [ih hunknown]

/-- A line does not come to start with an apostrophe. -/
theorem head_ne (h : Resolves resolver line is out) (hline : line.head? ≠ some '\'') : out.head? ≠ some '\'' := by
  cases h with
  | nil => exact hline
  | table => exact absurd rfl hline
  | column => exact nofun
  | other => exact hline

end Resolves

/-! ## Reading what is resolved -/

/-- Display names are read back from a line with these identifiers. -/
structure Readable (resolver : Resolver) (is : List Identifier) : Prop where
  /-- No display name holds an apostrophe. -/
  plain : ∀ i ∈ is, ∀ display, resolver.display? i = some display → '\'' ∉ display
  /-- No table has an empty display name. -/
  nonempty : ∀ name, .table name ∈ is → resolver.display? (.table name) ≠ some []
  /-- No apostrophe stands in brackets before the first table. -/
  unhidden : ∀ i ∈ is.takeWhile Identifier.isColumn, '\'' ∉ i.name

theorem shown_plain (hdisplay : ∀ display, resolver.display? i = some display → '\'' ∉ display) (hname : '\'' ∉ i.name) :
    '\'' ∉ resolver.shown i := by
  rw [shown]
  cases hd : resolver.display? i with
  | none => exact hname
  | some display => exact hdisplay display hd

namespace Readable

theorem tail (h : resolver.Readable (i :: is)) (hi : i.isColumn = true) : resolver.Readable is where
  plain := fun j hj => h.plain j (List.mem_cons_of_mem i hj)
  nonempty := fun name hname => h.nonempty name (List.mem_cons_of_mem i hname)
  unhidden := fun j hj => h.unhidden j (by rw [List.takeWhile_cons_of_pos hi]; exact List.mem_cons_of_mem i hj)

/-- The name shown of the first table is a name that can be quoted. -/
theorem shown_table (h : resolver.Readable (.table name :: is)) (hne : name ≠ []) (hname : Paired name) :
    resolver.shown (.table name) ≠ [] ∧ Paired (resolver.shown (.table name)) := by
  rw [shown]
  cases hd : resolver.display? (.table name) with
  | none => exact ⟨hne, hname⟩
  | some display =>
    refine ⟨fun he => h.nonempty name List.mem_cons_self (hd.trans (congrArg some he)), ?_⟩
    exact Paired.of_not_mem (h.plain _ List.mem_cons_self display hd)

/-- What is shown of the first table is read as its display name, or as the table itself. -/
theorem undouble_shown (h : resolver.Readable (.table name :: is)) :
    undoubleApostrophes (resolver.shown (.table name)) =
      (resolver.display? (.table name)).getD (undoubleApostrophes name) := by
  rw [shown]
  cases hd : resolver.display? (.table name) with
  | none => rfl
  | some display => exact undoubleApostrophes_eq (h.plain _ List.mem_cons_self display hd)

/-- What is shown of the first table does not start with an apostrophe unless its name does. -/
theorem shown_head (h : resolver.Readable (.table name :: is)) (hname : name.head? ≠ some '\'') :
    (resolver.shown (.table name)).head? ≠ some '\'' := by
  rw [shown]
  cases hd : resolver.display? (.table name) with
  | none => exact hname
  | some display => exact fun he => h.plain _ List.mem_cons_self display hd (List.mem_of_head? he)

end Readable

namespace Resolves

/-- A line without apostrophes stays without them. -/
theorem not_mem (h : Resolves resolver line is out) (hplain : ∀ i ∈ is, ∀ d, resolver.display? i = some d → '\'' ∉ d)
    (hline : '\'' ∉ line) : '\'' ∉ out := by
  induction h with
  | nil => exact hline
  | table => exact absurd List.mem_cons_self hline
  | column _ ih =>
    obtain ⟨hi, his⟩ := List.forall_mem_cons.mp hplain
    simp only [List.mem_cons, List.mem_append, not_or] at hline ⊢
    exact ⟨hline.1, shown_plain hi hline.2.1, hline.2.2.1, ih his hline.2.2.2⟩
  | other _ _ ih =>
    obtain ⟨hc, hs⟩ := List.ne_and_not_mem_of_not_mem_cons hline
    exact List.not_mem_cons_of_ne_of_not_mem hc (ih hplain hs)

/-- What closes a name in a line closes it in what is made of the line. -/
theorem closes (h : Resolves resolver line is out) (hplain : ∀ i ∈ is, ∀ d, resolver.display? i = some d → '\'' ∉ d)
    (hline : Closes line) : Closes out := by
  obtain hhead | ⟨more, rfl, hmore⟩ := hline
  · exact Or.inl (h.head_ne hhead)
  · cases h with
    | table => exact absurd (List.mem_append_right _ List.mem_cons_self) hmore
    | other _ hrest => exact Or.inr ⟨_, rfl, hrest.not_mem hplain hmore⟩

/-- No name is quoted at an apostrophe in what is made of a line where none is in the line. -/
theorem name?_eq_none (h : Resolves resolver s is out) (hr : resolver.Readable is) (hnone : name? ('\'' :: s) = none) :
    name? ('\'' :: out) = none := by
  obtain ⟨hs, -⟩ | ⟨rest, rfl, hrest, -⟩ | ⟨name, rest, rfl, -, -, -, hsome⟩ := name?_cases s
  · exact name?_open (h.not_mem hr.plain hs)
  · cases h with
    | @table name rest out is hne hname _ _ =>
      -- The apostrophe after the first is the opening one of a table, so a name stands behind it and not another apostrophe.
      obtain ⟨hshown, -⟩ := hr.shown_table hne hname
      refine name?_empty (Or.inl ?_)
      rw [List.head?_append_of_ne_nil _ hshown]
      exact hr.shown_head (hrest.head_ne hne)
    | other _ h => exact name?_empty (h.closes hr.plain hrest)
  · rw [hsome] at hnone
    cases hnone

/-- The first table of what is made of a line is the display name of the first one quoted in the line, or that one itself. -/
theorem firstTable?_eq (h : Resolves resolver line is out) (hr : resolver.Readable is) :
    Query.firstTable? out = (Query.quoted? line).map (fun name =>
      (resolver.display? (.table name)).getD (undoubleApostrophes name)) := by
  rw [Query.firstTable?_eq]
  induction h with
  | nil => rfl
  | table hne hname hrest h ih =>
    obtain ⟨hshown, hpaired⟩ := hr.shown_table hne hname
    have hout := h.closes (fun i hi => hr.plain i (List.mem_cons_of_mem _ hi)) hrest
    rw [Query.quoted?_found (name?_eq_some hne hname hrest), Query.quoted?_found (name?_eq_some hshown hpaired hout),
      Option.map_some, Option.map_some, hr.undouble_shown]
  | @column name rest out is h ih =>
    have hname : '\'' ∉ name := hr.unhidden (.column name) (by rw [List.takeWhile_cons_of_pos rfl]; exact List.mem_cons_self)
    have hshown := shown_plain (hr.plain _ List.mem_cons_self) hname
    have hskip : ∀ inner outer : List Char, '\'' ∉ inner →
        Query.quoted? ('[' :: (inner ++ ']' :: outer)) = Query.quoted? outer := by
      intro inner outer hinner
      rw [List.append_cons, ← List.cons_append]
      refine Query.quoted?_append ?_ outer
      simp only [List.mem_cons, List.mem_append, List.not_mem_nil, or_false, not_or]
      exact ⟨by decide, hinner, by decide⟩
    rw [hskip _ _ hname, hskip _ _ hshown, ih (hr.tail rfl)]
  | @other c s out is hnone h ih =>
    rw [Query.quoted?_skip hnone]
    by_cases hc : c = '\''
    · subst hc
      rw [Query.quoted?_skip (h.name?_eq_none hr hnone), ih hr]
    · rw [Query.quoted?_skip (name?_of_ne hc out), ih hr]

end Resolves

end Resolver

namespace Enrichment

open DaxPlan.Tree

variable {α : Type}

/-- The name of a table as a line quotes it: its display name if it has one, and otherwise the name itself. -/
def tableName (resolver : Option Resolver) (written : List Char) : String :=
  (resolver.bind (fun resolver => resolver (String.ofList written))).getD (String.ofList (Text.undoubleApostrophes written))

/-- A resolved node displays its line with display names. -/
theorem displayText_resolveName (resolver : Resolver) (n : Node α) :
    (resolveName (some resolver) n).displayText.toList = resolver.rendered n.lineText.toList := by
  have hline : (resolveName (some resolver) n).lineText = n.lineText := rfl
  have htext : (resolveName (some resolver) n).resolvedText = resolver.resolveText? n.lineText := rfl
  rw [Node.displayText, hline, htext, Resolver.resolveText?, Resolver.resolve?]
  split
  next => rw [Option.map_some, Option.getD_some, String.toList_ofList, Resolver.rendered]
  next hnone =>
    have hunknown : ∀ i ∈ Identifier.all n.lineText.toList, resolver.display? i = none := by
      intro i hi
      by_contra hsome
      exact hnone (List.any_eq_true.mpr ⟨i, hi, Option.isSome_iff_ne_none.mpr hsome⟩)
    rw [Option.map_none, Option.getD_none]
    exact ((resolver.resolves n.lineText.toList).eq_line hunknown).symm

/-- The table that a storage engine row is given. -/
theorem objectName_named {resolver : Option Resolver} {n : Node α} (hplain : n.resolvedText = none)
    (hreadable : ∀ r, resolver = some r → r.Readable (Identifier.all n.lineText.toList))
    (hstorage : (assignObjectName (resolveName resolver (assignEngine n))).engine.isStorage = true) :
    (assignObjectName (resolveName resolver (assignEngine n))).objectName =
      (Query.quoted? n.lineText.toList).map (tableName resolver) := by
  have hline : (assignEngine n).lineText = n.lineText := by
    unfold assignEngine
    split <;> rfl
  have hresolved : (assignEngine n).resolvedText = none := by
    unfold assignEngine
    split <;> exact hplain
  have hengine : (resolveName resolver (assignEngine n)).engine.isStorage = true := by
    unfold assignObjectName at hstorage
    split at hstorage <;> exact hstorage
  have hname : (assignObjectName (resolveName resolver (assignEngine n))).objectName =
      (Query.firstTable? (resolveName resolver (assignEngine n)).displayText.toList).map String.ofList := by
    unfold assignObjectName
    rw [if_pos hengine]
  rw [hname]
  cases resolver with
  | none =>
    have hdisplay : (resolveName none (assignEngine n)).displayText = n.lineText := by
      rw [resolveName, Node.displayText, hresolved, hline, Option.getD_none]
    rw [hdisplay, Query.firstTable?_eq, Option.map_map]
    rfl
  | some r =>
    rw [displayText_resolveName, hline, (r.resolves n.lineText.toList).firstTable?_eq (hreadable r rfl), Option.map_map]
    refine congrArg (fun f => (Query.quoted? n.lineText.toList).map f) (funext fun name => ?_)
    rw [Function.comp_apply, tableName, Option.bind_some, Resolver.display?, Identifier.name]
    cases r (String.ofList name) with
    | none => rfl
    | some display => exact String.ofList_toList

variable [Quantity α]

/-- In the plan of rows and events a storage engine row is given the display name of the first table that its line quotes, or
that table itself if it has none, where display names can be read back from the line. -/
theorem objectName_resolved {enricher : Enricher} {rows : List Row} {events : List (Event α)} {resolver : Option Resolver}
    {correlationId : String} {total : α} {plan : Plan α} {n : Node α}
    (h : enricher.physical rows events resolver correlationId total = .ok plan) (hn : n ∈ plan.nodes)
    (hstorage : n.engine.isStorage = true)
    (hreadable : ∀ r, resolver = some r → r.Readable (Identifier.all n.lineText.toList)) :
    n.objectName = (Query.quoted? n.lineText.toList).map (tableName resolver) := by
  have henriched := physical_enriched h
  have hagrees := henriched.agrees (fun n => (n.engine, n.lineText, n.objectName)) (fun _ _ => rfl) (fun _ => rfl)
  obtain ⟨m, hm, he⟩ := hagrees.symm.get? (henriched.walked.get?_id hn)
  obtain ⟨hengine, hline, hname⟩ : m.engine = n.engine ∧ m.lineText = n.lineText ∧ m.objectName = n.objectName := by
    simpa only [Prod.mk.injEq] using he
  rw [← hname, ← hline]
  rw [← hline] at hreadable
  rw [← hengine] at hstorage
  rw [namedTree, get?_map] at hm
  obtain ⟨row, hrow, rfl⟩ := Option.map_eq_some_iff.mp hm
  have hplain : row.resolvedText = none := by
    rw [← ofRows_untouched hrow]
    rfl
  have hunnamed : (assignObjectName (resolveName resolver (assignEngine row))).unnamed = row.unnamed := by
    rw [assignObjectName_unnamed, resolveName_unnamed, assignEngine_unnamed]
  have hkeep := congrArg Node.lineText hunnamed
  change (assignObjectName (resolveName resolver (assignEngine row))).lineText = row.lineText at hkeep
  rw [hkeep] at hreadable ⊢
  exact objectName_named hplain hreadable hstorage

/-- A row that reads the table `T`, which the resolver knows as `Sales`. -/
theorem objectName_resolved_sales :
    let resolver : Resolver := fun name => if name = "T" then some "Sales" else none
    let row : Row := ⟨1, 0, "Scan_Vertipaq", "'T'[C]", .storageScan, none, none⟩
    ∃ plan : Plan Rat, ({} : Enricher).physical [row] [] (some resolver) "" 0 = .ok plan ∧
      ∃ n ∈ plan.nodes, n.engine.isStorage = true ∧ resolver.Readable (Identifier.all n.lineText.toList) ∧
        n.objectName = some "Sales" := by
  intro resolver row
  obtain ⟨plan, hplan, -⟩ := physical_spec {} [row] ([] : List (Event Rat)) (some resolver) "" 0 rfl
  have hvalues : (({} : Enricher).physical (α := Rat) [row] [] (some resolver) "" 0).toOption.map
      (fun p => p.nodes.map (fun n => (n.engine, n.lineText))) =
        some [(.storageEngine, "Scan_Vertipaq: 'T'[C]")] := by decide +kernel
  rw [hplan] at hvalues
  have hnodes := Option.some.inj hvalues
  obtain ⟨n, rest, hcons, hn, -⟩ := List.map_eq_cons_iff.mp hnodes
  obtain ⟨hengine, hline⟩ := Prod.mk.inj hn
  have hmem : n ∈ plan.nodes := hcons ▸ List.mem_cons_self
  have hstorage : n.engine.isStorage = true := by rw [hengine]; rfl
  have hidentifiers : Identifier.all n.lineText.toList = [.table ['T'], .column ['C']] := by
    rw [hline]
    decide +kernel
  have htable : resolver.display? (.table ['T']) = some "Sales".toList := by decide +kernel
  have hcolumn : resolver.display? (.column ['C']) = none := by decide +kernel
  have hreadable : resolver.Readable (Identifier.all n.lineText.toList) := by
    rw [hidentifiers]
    refine ⟨fun i hi display hd => ?plain, fun name hname he => ?nonempty, fun i hi => nomatch hi⟩
    case plain =>
      obtain rfl | rfl : i = .table ['T'] ∨ i = .column ['C'] := by simpa using hi
      · rw [htable, Option.some.injEq] at hd
        rw [← hd]
        decide +kernel
      · rw [hcolumn] at hd
        cases hd
    case nonempty =>
      obtain rfl : name = ['T'] := by simpa using hname
      rw [htable] at he
      cases he
  have hname := objectName_resolved hplan hmem hstorage (fun r hr => Option.some.inj hr ▸ hreadable)
  refine ⟨plan, hplan, n, hmem, hstorage, hreadable, ?_⟩
  rw [hname, hline]
  decide +kernel

/-- A display name with an apostrophe is read back up to the apostrophe; a name with a doubled apostrophe is not known to a
resolver that knows the name; and a table within brackets is not resolved. On the left what the row is given, on the right what
the resolver has for the table of the line. -/
theorem objectName_apart :
    let tables (name display details : String) : Option (List (Option String × Option String)) :=
      let resolver : Resolver := fun asked => if asked = name then some display else none
      let row : Row := ⟨1, 0, "Scan_Vertipaq", details, .storageScan, none, none⟩
      (({} : Enricher).physical (α := Rat) [row] [] (some resolver) "" 0).toOption.map (fun p => p.nodes.map (fun n =>
        (n.objectName, (Query.firstTable? n.lineText.toList).map (fun table =>
          (resolver (String.ofList table)).getD (String.ofList table)))))
    tables "T" "Owner's Data" "'T'[C]" = some [(some "Owner", some "Owner's Data")] ∧
      tables "O'Brien" "Ireland" "'O''Brien'[C]" = some [(some "O'Brien", some "Ireland")] ∧
      tables "T" "Sales" "[CallbackDataID('T'[C])]" = some [(some "T", some "Sales")] := by
  decide +kernel

end Enrichment

end DaxPlan
