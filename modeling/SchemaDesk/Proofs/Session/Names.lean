import SchemaDesk.Proofs.Session.Attended
import SchemaDesk.Proofs.Session.Formed

/-!
# Names in a session

Commands take in names that can stand only, and so does the parser for tables.  For columns it does
not check what stands in quotes, so an odd name in a text becomes the name of a column, which no
later edit looks at again.  There is no other way for one to come in (`parse_attended_names`).
-/

namespace SchemaDesk

open Minting

/-- Whether the name of a column can stand or is one of some odd names. -/
def Column.IsNamedWithin (odd : List Text) (c : Column) : Prop :=
  c.name.IsName ∨ ∃ n ∈ odd, c.name = .str n

/-- Without odd names all names can stand. -/
@[simp] theorem Column.isNamedWithin_nil {c : Column} : c.IsNamedWithin [] ↔ c.name.IsName := by
  simp [IsNamedWithin]

/-- Whether a command takes in no other columns than such ones.  Commands that name columns
themselves check the names. -/
def Command.NamesWithin (odd : List Text) : Command → Prop
  | .load project => Formed (Column.IsNamedWithin odd) (fun _ => True) project.tables
      project.relations
  | .append tables relations | .merge tables relations =>
      Formed (Column.IsNamedWithin odd) (fun _ => True) tables relations
  | _ => True

/-- Whether an action takes in no other columns than such ones, and loads no file. -/
def Action.NamesWithin (odd : List Text) : Action → Prop
  | .execute command => command.NamesWithin odd
  | .importSql sql | .applySql sql => Sql.oddNames sql ⊆ odd
  | .undo | .redo => True
  | .load _ _ => False

/-! ## What brings names in -/

/-- No edit spoils the name of a column. -/
theorem Column.isNamedWithin_lasting (odd : List Text) :
    Edit.Lasting (IsNamedWithin odd) (fun _ => True) where
  seed id := .inl (Value.isName_str.2 (by decide))
  unmarked {c c'} hc hcleared := by
    -- clearing the marks of a column does not touch its name
    have hname : (Flags.cleared c').name = (Flags.cleared c).name := congrArg Column.name hcleared
    change c'.name = c.name at hname
    rwa [IsNamedWithin, hname]
  taken hc _ := hc
  related _ _ _ _ _ _ := trivial
  moved _ _ _ := trivial

theorem Command.NamesWithin.brings {odd : List Text} {command : Command}
    (h : command.NamesWithin odd) :
    command.Brings (Column.IsNamedWithin odd) (fun _ => True) := by
  cases command with
  | addColumn tableId v type patch =>
      -- the name comes first in the patch, and what follows can only give another one that stands
      intro patch' id _ hcheck
      have hname := (Edit.checkColumnPatch_eq_ok hcheck).2
      have hstands := Edit.withName_isName hname
      obtain ⟨clean, rest, rfl⟩ := Edit.withName_cons_name hname
      exact .inl (Field.patched_view (P := Value.IsName) Column.name "name"
        (by simp [Column.fields]) (fun e he => hstands e (List.mem_cons_of_mem _ he))
        (hstands _ List.mem_cons_self rfl))
  | updateColumn tableId columnId patch =>
      intro patch' c hcheck hc
      have hstands := Edit.withName_isName (Edit.checkColumnPatch_eq_ok hcheck).2
      exact Field.patched_view (P := fun v => v.IsName ∨ ∃ n ∈ odd, v = .str n) Column.name "name"
        (by simp [Column.fields]) (fun e he hkey => .inl (hstands e he hkey)) hc
  | load project => exact h
  | append tables relations => exact h
  | merge tables relations => exact h
  | _ => trivial

/-- A column that is made from a clause of a text has an odd name only if the text has it. -/
theorem Sql.MadeFrom.isNamedWithin {sql : Text} {s : Statement} (hs : s ∈ statements sql)
    {clause : ColumnClause} (hclause : clause ∈ s.columns) {c : Column} (h : MadeFrom clause c) :
    c.IsNamedWithin (oddNames sql) := by
  by_cases hstands : Value.IsName (.str clause.name)
  · exact .inl (h.name ▸ hstands)
  · refine .inr ⟨clause.name, List.mem_flatMap.2 ⟨s, hs, ?_⟩, h.name⟩
    exact mem_statement_oddNames.2 ⟨⟨clause, hclause, rfl⟩, hstands⟩

theorem Action.NamesWithin.brings {odd : List Text} {action : Action}
    (h : action.NamesWithin odd) : action.Brings (Column.IsNamedWithin odd) (fun _ => True) := by
  have htext : ∀ {sql}, Sql.oddNames sql ⊆ odd → ∀ s ∈ Sql.statements sql, ∀ clause ∈ s.columns,
      ∀ c, Sql.MadeFrom clause c → c.IsNamedWithin odd := by
    intro sql hsub s hs clause hclause c hfrom
    refine (hfrom.isNamedWithin hs hclause).imp_right ?_
    rintro ⟨n, hn, hname⟩
    exact ⟨n, hsub hn, hname⟩
  cases action with
  | execute command => exact Command.NamesWithin.brings h
  | importSql sql => exact htext h
  | applySql sql => exact htext h
  | undo => trivial
  | redo => trivial
  | load disk path => exact h.elim

/-! ## Which names there are -/

/-- Every table that is read from a text has a name that can stand, and so has every column, unless
it is one of the odd names in quotes.  All of these are the names of columns, and none of them can
stand; so the names of all columns can stand exactly if there are no odd ones.  In a session that
loads nothing, tables have names that can stand, and columns have such names or odd ones from its
texts. -/
theorem parse_attended_names (sql : Text) (odd : List Text) :
    (∀ ids parsed ids', (Sql.parse sql).Gives ids parsed ids' →
      (∀ t ∈ parsed.tables, t.name.IsName ∧
        ∀ c ∈ t.columns, c.IsNamedWithin (Sql.oddNames sql)) ∧
      (∀ n ∈ Sql.oddNames sql, ¬ Value.IsName (.str n) ∧
        ∃ t ∈ parsed.tables, ∃ c ∈ t.columns, c.name = .str n) ∧
      ((∀ t ∈ parsed.tables, ∀ c ∈ t.columns, c.name.IsName) ↔ Sql.oddNames sql = [])) ∧
    ∀ seen d, Attended (Action.NamesWithin odd) seen d →
      ∀ t ∈ d.store.project.tables, t.name.IsName ∧ ∀ c ∈ t.columns, c.IsNamedWithin odd := by
  constructor
  · intro ids parsed ids' hparse
    have hformed : Formed (Column.IsNamedWithin (Sql.oddNames sql)) (fun _ => True) parsed.tables
        parsed.relations :=
      Sql.parse_formed hparse (fun s hs clause hclause c hfrom => hfrom.isNamedWithin hs hclause)
        fun _ _ => trivial
    have hodd : ∀ n ∈ Sql.oddNames sql, ¬ Value.IsName (.str n) ∧
        ∃ t ∈ parsed.tables, ∃ c ∈ t.columns, c.name = .str n :=
      fun n hn => ((Sql.mem_oddNames hparse).1 hn).symm
    refine ⟨fun t ht => ⟨(hformed.tables t ht).name, (hformed.tables t ht).columns⟩, hodd,
      fun hall => ?_, fun hnone t ht c hc => ?_⟩
    · refine List.eq_nil_iff_forall_not_mem.2 fun n hn => ?_
      obtain ⟨hstands, t, ht, c, hc, hname⟩ := hodd n hn
      exact hstands (hname ▸ hall t ht c hc)
    · have hc := (hformed.tables t ht).columns c hc
      rw [hnone] at hc
      exact Column.isNamedWithin_nil.1 hc
  · intro seen d h t ht
    obtain ⟨e, hreached, halike⟩ := h.exists_reached
    rw [halike.project] at ht
    have hformed := hreached.canvases_formed (Column.isNamedWithin_lasting odd) (fun _ _ => trivial)
      (fun _ => Action.NamesWithin.brings) _ hreached.canvases_sound.2.1
    exact ⟨(hformed.tables t ht).name, (hformed.tables t ht).columns⟩

/-- A text whose table has blanks around its name, and whose last two columns have odd names. -/
def spacedNames : Text :=
  "CREATE TABLE [ t ] (id INT, [ ] INT, ` n` INT);"

/-- In a session that reads this text there are no other odd names than those two, and a column
whose name was given with blanks by a command has lost them. -/
theorem parse_attended_names_spaced : ∃ parsed ids' seen d,
    (Sql.parse spacedNames).Gives {} parsed ids' ∧
    Sql.oddNames spacedNames = ([" ", " n"] : List Text) ∧
    Attended (Action.NamesWithin [" ", " n"]) seen d ∧
    d.store.project.tables.map (·.columns.map Column.name) =
      ([["id", " ", " n"], ["id", "n"]] : List (List Value)) ∧
    (∀ n ∈ ([" ", " n"] : List Text),
      ∃ t ∈ parsed.tables, ∃ c ∈ t.columns, c.name = .str n) ∧
    ∀ t ∈ d.store.project.tables, ∀ c ∈ t.columns, c.IsNamedWithin [" ", " n"] := by
  have hodd : Sql.oddNames spacedNames = ([" ", " n"] : List Text) := by
    rw [spacedNames]
    repeat rw [Text.ofString_ofList]
    decide +kernel
  have start := @Reached.start (Action.NamesWithin [" ", " n"]) {} {} _ rfl
  obtain ⟨seen, d, reached, hcolumns⟩ := start.exists_proceed
    [.importSql spacedNames, .execute (.addTable "u" []),
      .execute (.addColumn (identifier 7) " n " DataType.int.name [])]
    (fun _ d => d.store.project.tables.map (·.columns.map Column.name) =
      ([["id", " ", " n"], ["id", "n"]] : List (List Value)))
    (by simp [Action.NamesWithin, Command.NamesWithin, hodd]) (by simp)
    (by rw [spacedNames]; repeat rw [Text.ofString_ofList]
        decide +kernel)
  have hreads : ((Sql.parse spacedNames).runFrom {}).1.toOption.any (fun _ => true) = true := by
    rw [spacedNames]
    repeat rw [Text.ofString_ofList]
    decide +kernel
  obtain ⟨parsed, hparse, -⟩ := gives_of_any hreads rfl
  obtain ⟨hread, hsession⟩ := parse_attended_names spacedNames [" ", " n"]
  obtain ⟨-, hnames, -⟩ := hread _ _ _ hparse
  rw [hodd] at hnames
  exact ⟨parsed, _, seen, d, hparse, hodd, reached.attended, hcolumns,
    fun n hn => (hnames n hn).2, fun t ht => (hsession _ _ reached.attended t ht).2⟩

/-- A text with a column whose name is blank. -/
def blankName : Text :=
  "CREATE TABLE t (id INT, \" \" INT)"

/-- So there is a text that is read with a blank name, and importing it brings that name into a
session. -/
theorem parse_attended_names_blank : ∃ parsed ids' seen d,
    (Sql.parse blankName).Gives {} parsed ids' ∧
    (∃ t ∈ parsed.tables, ∃ c ∈ t.columns, c.name = .str " " ∧ ¬ c.name.IsName) ∧
    Attended (· = .importSql blankName) seen d ∧
    ∃ t ∈ d.store.project.tables, ∃ c ∈ t.columns, c.name = .str " " ∧ ¬ c.name.IsName := by
  have hblank : ∀ {tables : List Table},
      (tables.any fun t => t.columns.any (·.name = .str " ")) = true →
        ∃ t ∈ tables, ∃ c ∈ t.columns, c.name = .str " " ∧ ¬ c.name.IsName := by
    intro tables hany
    obtain ⟨t, ht, hany⟩ := List.any_eq_true.1 hany
    obtain ⟨c, hc, hname⟩ := List.any_eq_true.1 hany
    have hname := of_decide_eq_true hname
    refine ⟨t, ht, c, hc, hname, ?_⟩
    rw [hname, Value.isName_str]
    decide
  have start := @Reached.start (· = .importSql blankName) {} {} _ rfl
  obtain ⟨seen, d, reached, hshown⟩ := start.exists_proceed [.importSql blankName]
    (fun _ d => (d.store.project.tables.any fun t => t.columns.any (·.name = .str " ")) = true)
    (by simp) (by simp)
    (by rw [blankName]; repeat rw [Text.ofString_ofList]
        decide +kernel)
  have hreads : ((Sql.parse blankName).runFrom {}).1.toOption.any
      (fun parsed => parsed.tables.any fun t => t.columns.any (·.name = .str " ")) = true := by
    rw [blankName]
    repeat rw [Text.ofString_ofList]
    decide +kernel
  obtain ⟨parsed, hparse, hcheck⟩ := gives_of_any hreads rfl
  exact ⟨parsed, _, seen, d, hparse, hblank hcheck, reached.attended, hblank hshown⟩

end SchemaDesk
