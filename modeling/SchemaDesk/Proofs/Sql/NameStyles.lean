import SchemaDesk.Proofs.Sql.Resolution
import SchemaDesk.Proofs.Sql.TableText
import SchemaDesk.Proofs.Sql.Unreadable

/-!
# Three ways to quote a name

A name may stand in backticks, in double quotes or in square brackets, with its closing quote
doubled.  In the first two a name may be any text.  Tokens know all three, but what removes
comments, measures groups and separates items does not know brackets: a name in brackets is read if
it does not disturb these (`Undisturbed`), and then like a name in other quotes (`parse_quoted_names`).
-/

namespace SchemaDesk.Sql

open Minting
open Flags (hinted)

/-! ## Names in quotes -/

/-- What a name may be put in. -/
inductive NameStyle where
  | backtick
  | doubleQuote
  | bracket
  deriving DecidableEq

namespace NameStyle

/-- The character before a name. -/
def opener : NameStyle → CodePoint
  | .backtick => '`'
  | .doubleQuote => '"'
  | .bracket => '['

/-- The character after a name, which is doubled in the name. -/
def closer : NameStyle → CodePoint
  | .backtick => '`'
  | .doubleQuote => '"'
  | .bracket => ']'

/-- A name in its quotes. -/
def quote (style : NameStyle) (name : Text) : Text :=
  style.opener :: (doubled style.closer name ++ [style.closer])

variable {style : NameStyle}

theorem isBlank_opener (style : NameStyle) : style.opener.is Text.isBlank = false := by
  cases style <;> decide

/-- A name in quotes is one token, whatever follows it but another closing quote. -/
theorem tokensFrom_quote (style : NameStyle) (name : Text) {u : Text}
    (hu : u.head? ≠ some style.closer) (position : Nat) :
    tokensFrom position 0 (style.quote name ++ u) =
      ⟨.quoted name, position, position + (style.quote name).length⟩ ::
        tokensFrom (position + (style.quote name).length) 0 u := by
  refine tokensFrom_leading style.isBlank_opener ?_ position
  cases style with
  | backtick => exact leading_quoted rfl (by decide) (by decide) (by decide) name hu
  | doubleQuote => exact leading_quoted rfl (by decide) (by decide) (by decide) name hu
  | bracket => exact leading_quoted rfl (by decide) (by decide) (by decide) name hu

/-- Names in backticks and in double quotes are passed over by all scanners. -/
theorem solid_quote (h : style ≠ .bracket) (name : Text) : Solid (style.quote name) := by
  cases style with
  | backtick => exact .of_run (isRun_quoteName rfl (by decide) name)
  | doubleQuote => exact .of_run (isRun_quoteName rfl (by decide) name)
  | bracket => exact absurd rfl h

end NameStyle

/-! ## A table with one column -/

/-- A column of integers. -/
def integerColumn (style : NameStyle) (column : Text) : Text :=
  style.quote column ++ " INT"

/-- A table with one column. -/
def oneColumnTable (style : NameStyle) (table column : Text) : Text :=
  "CREATE TABLE " ++ style.quote table ++ " (" ++ style.quote column ++ " INT)"

/-- A table whose names mean nothing to what removes comments, measures groups and separates
items. -/
structure Undisturbed (style : NameStyle) (table column : Text) : Prop where
  comments : stripComments (oneColumnTable style table column) = oneColumnTable style table column
  group : takeGroup 0 .bare (integerColumn style column ++ ")") = some (integerColumn style column)
  item : splitItems (integerColumn style column) = [integerColumn style column]

section Tables

variable {style : NameStyle} {table column : Text}

theorem oneColumnTable_eq (style : NameStyle) (table column : Text) :
    oneColumnTable style table column = "CREATE TABLE " ++ (style.quote table ++
      (.char ' ' :: parenthesized (integerColumn style column))) := by
  simp [oneColumnTable, integerColumn, parenthesized, Text.ofString, Text.ofChars]

theorem integerColumn_trimmed (style : NameStyle) (column : Text) :
    (integerColumn style column).Trimmed := by
  refine ⟨⟨style.opener, rfl, style.isBlank_opener⟩, ⟨.char 'T', ?_, by decide⟩⟩
  rw [integerColumn, List.getLast?_append]
  rfl

/-- Names that all scanners pass over disturb nothing. -/
theorem Undisturbed.of_solid (htable : Neutral (style.quote table))
    (hcolumn : Solid (style.quote column)) : Undisturbed style table column := by
  have hitem : Solid (integerColumn style column) :=
    hcolumn.append (.of_all (by decide))
  refine ⟨?_, takeGroup_of_neutral hitem.toNeutral [], ?_⟩
  · have hlead : Neutral (Text.ofString "CREATE TABLE ") := .of_all (by decide)
    have hgap : Neutral [.char ' '] := .char rfl
    have hall := (hlead.append (htable.append (hgap.append
      (Solid.group hitem.toNeutral).toNeutral))).kept []
    rw [List.append_nil] at hall
    rw [oneColumnTable_eq, stripComments]
    exact hall.trans (List.append_nil _)
  · have hitems : ∀ x ∈ [integerColumn style column], IsItem x :=
      List.forall_mem_singleton.2 ⟨hitem, integerColumn_trimmed style column⟩
    have hsplit := splitItems_join [] rfl hitems
    rwa [Text.join_cons, List.flatMap_nil, List.append_nil] at hsplit

/-! ## Reading the table -/

theorem leading_integerColumn (h : Undisturbed style table column) :
    leading '(' (integerColumn style column ++ [.char ')'] ++ []) =
      (.group (integerColumn style column),
        (integerColumn style column ++ [CodePoint.char ')']).length) := by
  have htake : takeGroup 0 .bare (integerColumn style column ++ [.char ')']) = _ := h.group
  have hword : isWordChar '(' = false := by decide
  have hcloser : closer? '(' = none := rfl
  rw [List.append_nil, leading, hword, if_neg Bool.false_ne_true, hcloser]
  simp only [if_true, htake, List.length_append, List.length_singleton]

theorem tokenize_oneColumnTable (h : Undisturbed style table column) :
    ∃ stop last, tokenize (oneColumnTable style table column) =
      [⟨.word "CREATE", 0, 6⟩, ⟨.word "TABLE", 7, 12⟩, ⟨.quoted table, 13, stop⟩,
        ⟨.group (integerColumn style column), stop + 1, last⟩] := by
  have hlead : ∀ next, Legible next [.word "CREATE", .gap ' ', .word "TABLE", .gap ' '] :=
    fun _ => ⟨rfl, by simp⟩
  have hgap : ∀ next, Legible next [.gap ' '] := fun _ => ⟨rfl, by simp⟩
  have hnext : ∀ body : Text, (.char ' ' :: body : Text).head? ≠ some style.closer := by
    intro body hsame
    cases style <;> cases hsame
  have hwords : ∀ u : Text, tokensFrom 0 0 ("CREATE TABLE " ++ u) =
      [⟨.word "CREATE", 0, 6⟩, ⟨.word "TABLE", 7, 12⟩] ++ tokensFrom 13 0 u :=
    fun u => tokensFrom_pieces (hlead u.head?) 0
  have hblank : ∀ (u : Text) position, tokensFrom position 0 (.char ' ' :: u) =
      tokensFrom (position + 1) 0 u :=
    fun u position => tokensFrom_pieces (hgap u.head?) position
  have hgroup : ∀ position, tokensFrom position 0 (parenthesized (integerColumn style column)) =
      [⟨.group (integerColumn style column), position,
        position + (parenthesized (integerColumn style column)).length⟩] := by
    intro position
    have htokens := tokensFrom_leading (by decide) (leading_integerColumn h) position
    rwa [List.append_nil] at htokens
  refine ⟨13 + (style.quote table).length, 13 + (style.quote table).length + 1 +
    (parenthesized (integerColumn style column)).length, ?_⟩
  rw [oneColumnTable_eq, tokenize, hwords, style.tokensFrom_quote table (hnext _), hblank, hgroup]
  rfl

theorem statements_oneColumnTable (h : Undisturbed style table column)
    (htrim : table.trim = table) (hne : table ≠ []) :
    statements (oneColumnTable style table column) =
      [.createTable table (integerColumn style column) {}] := by
  obtain ⟨stop, last, htokens⟩ := tokenize_oneColumnTable h
  have hturn : statementTurn (oneColumnTable style table column) ⟨.word "CREATE", 0, 6⟩
      ([⟨.word "TABLE", 7, 12⟩, ⟨.quoted table, 13, stop⟩,
        ⟨.group (integerColumn style column), stop + 1, last⟩] ++ []) =
      .next (some (.createTable table (integerColumn style column) {})) [] :=
    (statementTurn_create _ 0 6 _).trans
      (createTurn_quoted (integerColumn style column) htrim hne 7 12 13 stop (stop + 1) last [])
  rw [statements, h.comments, htokens]
  exact congrArg Prod.fst (turns_next _ hturn)

theorem classify_integerColumn (style : NameStyle) (column : Text) :
    classify (integerColumn style column) = .column { name := column, rawType := "INT" } := by
  have htype : ∀ position, tokensFrom position 0 (Text.ofString " INT") =
      [⟨.word "INT", position + 1, position + 4⟩] := by
    intro position
    have hlegible : Legible none [.gap ' ', .word "INT"] := ⟨rfl, by simp⟩
    exact tokensFrom_pieces (u := []) hlegible position
  have hnext : (Text.ofString " INT").head? ≠ some style.closer := by
    cases style <;> decide
  have htokens := style.tokensFrom_quote column hnext 0
  rw [htype, ← integerColumn] at htokens
  rw [classify, tokenize, htokens]
  rfl

end Tables

/-! ## The whole reading -/

/-- A name in quotes names its table or its column, whichever quotes it is in, unless it is in
brackets and disturbs a scanner that does not know them. -/
theorem parse_quoted_names {style : NameStyle} {table column : Text} (htrim : table.trim = table)
    (hne : table ≠ []) (hbracket : style = .bracket → Undisturbed style table column)
    (ids : IdSupply) :
    ∃ parsed ids' t c, (parse (oneColumnTable style table column)).Gives ids parsed ids' ∧
      parsed.tables = [t] ∧ t.name = .str table ∧ t.columns = [c] ∧ c.name = .str column ∧
      c.type = DataType.int.name := by
  have hundisturbed : Undisturbed style table column := by
    by_cases hstyle : style = .bracket
    · exact hbracket hstyle
    · exact .of_solid (style.solid_quote hstyle table).toNeutral (style.solid_quote hstyle column)
  have hstatements := statements_oneColumnTable hundisturbed htrim hne
  have hclauses : (splitItems (integerColumn style column)).map classify =
      [.column { name := column, rawType := "INT" }] := by
    rw [hundisturbed.item, List.map_cons, classify_integerColumn]
    rfl
  -- no argument has to be read as a number
  have hnumerals : numerals (oneColumnTable style table column) = [] := by
    rw [numerals, hstatements, List.flatMap_cons, Statement.numerals, hclauses]
    rfl
  have hfails := parse_failsWith (oneColumnTable style table column)
  rw [hnumerals] at hfails
  obtain ⟨parsed, ids', hparsed⟩ := hfails.gives ids
  obtain ⟨built, mid, hbuilt, -, -, htables⟩ := parse_links hparsed
  rw [hstatements] at hbuilt
  obtain ⟨t, mid₁, ht, hrest⟩ := buildAll_createTable_gives.1 hbuilt
  rw [hclauses] at ht hrest
  obtain ⟨columns, last, hcolumns, rfl, rfl⟩ := buildTable_gives.1 ht
  obtain ⟨-, hdrawn⟩ := buildColumns_drawn hcolumns
  obtain ⟨c, cs, ⟨arguments, id, -, rfl⟩, hnil, rfl⟩ := List.forall₂_cons_left_iff.1 hdrawn
  obtain rfl := List.forall₂_nil_left_iff.1 hnil
  obtain ⟨hempty, -⟩ | ⟨-, more, hmore, rfl⟩ := hrest
  · cases hempty
  · obtain ⟨rfl, -⟩ := gives_pure.1 hmore
    refine ⟨parsed, ids', _, _, hparsed, htables, rfl, rfl, ?_, ?_⟩
    · rw [hinted]
      split <;> rfl
    · rw [hinted]
      split <;> rfl

/-- Names in brackets with a comment mark in quotes and with a comma in parentheses. -/
theorem parse_quoted_names_bracket :
    Text.trim "x' ]-- '" = "x' ]-- '" ∧ ("x' ]-- '" : Text) ≠ [] ∧
      Undisturbed .bracket "x' ]-- '" "f(a, b)" ∧
      ∃ parsed ids' t c, (parse "CREATE TABLE [x' ]]-- '] ([f(a, b)] INT)").Gives {} parsed ids' ∧
        parsed.tables = [t] ∧ t.name = .str "x' ]-- '" ∧ t.columns = [c] ∧
        c.name = .str "f(a, b)" ∧ c.type = DataType.int.name := by
  have htrim : Text.trim "x' ]-- '" = "x' ]-- '" := by decide +kernel
  have hne : ("x' ]-- '" : Text) ≠ [] := by decide +kernel
  have hundisturbed : Undisturbed .bracket "x' ]-- '" "f(a, b)" :=
    ⟨by decide +kernel, by decide +kernel, by decide +kernel⟩
  have htext : oneColumnTable .bracket "x' ]-- '" "f(a, b)" =
      "CREATE TABLE [x' ]]-- '] ([f(a, b)] INT)" := by
    decide +kernel
  refine ⟨htrim, hne, hundisturbed, ?_⟩
  rw [← htext]
  exact parse_quoted_names htrim hne (fun _ => hundisturbed) {}

/-- Two dashes in a name in brackets are removed as a comment, and no table is read. -/
theorem parse_bracket_comment :
    Text.trim "a--b" = "a--b" ∧ Text.trim "c" = "c" ∧
      oneColumnTable .bracket "a--b" "c" = "CREATE TABLE [a--b] ([c] INT)" ∧
      ∃ parsed ids', (parse (oneColumnTable .bracket "a--b" "c")).Gives {} parsed ids' ∧
        parsed.tables = [] := by
  have hcheck : ((parse (oneColumnTable .bracket "a--b" "c")).runFrom {}).1.toOption.any
      (fun parsed => decide (parsed.tables = [])) = true := by
    decide +kernel
  obtain ⟨parsed, hparsed, hnone⟩ := Minting.gives_of_any hcheck rfl
  exact ⟨by decide +kernel, by decide +kernel, by decide +kernel, parsed, _, hparsed,
    of_decide_eq_true hnone⟩

end SchemaDesk.Sql
