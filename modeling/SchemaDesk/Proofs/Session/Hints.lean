import SchemaDesk.Proofs.Edit.Hints
import SchemaDesk.Proofs.Session.Typed

/-!
# What columns repeat in a session

In a session that only its own edits, merges and imports bring tables into, a column is flagged and
repeats the target of a relation, or it says nothing of foreign keys.  The relation starts at the
column, unless two relations with different targets once did, and then it may be one of those
(`reached_hints`).

This is as much as can be said: a column that repeats a relation to a table that is deleted goes on
repeating it if another relation still starts at it (`reached_hints_stale`).
-/

namespace SchemaDesk

/-- Whether an action leaves what columns repeat to the relations. -/
def Action.LeavesHints : Action → Prop
  | .execute command => command.LeavesHints
  | .load _ _ => False
  | _ => True

/-- Such an action takes in typed tables and references only. -/
theorem Action.LeavesHints.takesText {action : Action} (h : action.LeavesHints) :
    action.TakesText := by
  cases action with
  | execute command => exact Command.LeavesHints.takesText h
  | load disk path => exact h.elim
  | _ => trivial

/-- An action that leaves what columns repeat to the relations puts only projects in place in which
columns repeat what they may repeat. -/
theorem Action.puts_hints {seen : List Snapshot} {d : Designer} {q : Project} {ids' : IdSupply}
    {action : Action} (h : action.Puts d q ids') (hleaves : action.LeavesHints)
    (hgood : ∀ s ∈ seen, Hinted seen s.tables s.relations)
    (htyped : ∀ t ∈ d.canvas.tables, t.IsTyped) (hcanvas : d.canvas ∈ seen)
    (hrestored : ∀ s, action = .execute (.restore s) → s ∈ seen) :
    Hinted seen q.tables q.relations := by
  have hd := hgood _ hcanvas
  cases action with
  | execute command =>
      obtain ⟨reply, hgives⟩ := h
      exact Command.keeps_hints hgives hleaves hd htyped hcanvas
        fun s hs => hgood s (hrestored s (congrArg Action.execute hs))
  | importSql sql =>
      obtain ⟨parsed, hgives⟩ := h
      obtain ⟨hparse, -, rfl⟩ := Designer.importEdit_gives hgives
      exact hd.append (Sql.parse_hinted seen hparse)
  | applySql sql =>
      obtain ⟨parsed, hgives⟩ := h
      obtain ⟨hparse, -, rfl⟩ := Designer.applyEdit_gives hgives
      exact Edit.merged_hinted hd htyped (Sql.parse_declares hparse).isTyped
        (Sql.parse_settled hparse)
  | undo => exact h.elim
  | redo => exact h.elim
  | load disk path => exact hleaves.elim

/-- In every state of a session that leaves what columns repeat to the relations, a column says
nothing of foreign keys, or it is flagged and repeats the target of a relation.  That relation is a
current one that starts at the column, unless the column shared it, in a canvas shown before, with a
relation of another target. -/
theorem reached_hints {seen : List Snapshot} {d : Designer}
    (h : Reached Action.LeavesHints seen d) :
    ∀ t ∈ d.store.project.tables, ∀ c ∈ t.columns,
      (c.isForeignKey = .bool false ∧ c.referencesTableId = .null ∧
        c.referencesColumnId = .null) ∨
      (c.isForeignKey = .bool true ∧ ∃ r, c.Repeats r ∧
        ((r ∈ d.store.project.relations ∧ r.startsAt t.id c.id = true) ∨
          ∃ s ∈ seen, s.Shares t.id c.id r)) := by
  obtain ⟨hhinted, hcanvas, -⟩ := h.canvases_within (fun seen s => Hinted seen s.tables s.relations)
    (fun _ => Hinted.nil)
    (fun _ _ _ hs => hs.mono (List.subset_cons_self _ _) (List.Subset.refl _))
    fun seen d action q ids' hreached hleaves hgood hcanvas hrestored _ hputs =>
      Action.puts_hints hputs hleaves hgood
        ((hreached.mono fun _ => Action.LeavesHints.takesText).canvases_typed _ hcanvas) hcanvas
        hrestored
  intro t ht c hc
  refine (hhinted _ hcanvas t ht c hc).imp_right (And.imp_right ?_)
  rintro ⟨r, hr, hrepeats⟩
  exact ⟨r, hrepeats, hr⟩

/-- A column starts a relation to itself and one to another table.  The first one is deleted, and
the column is renamed. -/
theorem reached_hints_shared : ∃ seen d, Reached Action.LeavesHints seen d ∧
    (d.store.project.relations.length = 1 ∧ seen.length = 7) ∧
    ∀ t ∈ d.store.project.tables, ∀ c ∈ t.columns,
      (c.isForeignKey = .bool false ∧ c.referencesTableId = .null ∧
        c.referencesColumnId = .null) ∨
      (c.isForeignKey = .bool true ∧ ∃ r, c.Repeats r ∧
        ((r ∈ d.store.project.relations ∧ r.startsAt t.id c.id = true) ∨
          ∃ s ∈ seen, s.Shares t.id c.id r)) := by
  have hpatch : ∀ entry ∈ [(Text.ofString "name", Value.str "parent")],
      entry.1 ∉ Column.linkFields := by decide
  have start := @Reached.start Action.LeavesHints {} {} _ rfl
  obtain ⟨seen, d, reached, hlengths⟩ := start.exists_proceed
    [.execute (.addTable "a" []), .execute (.addTable "b" []),
      .execute (.addRelation ⟨identifier 3, identifier 2, identifier 3, identifier 2⟩ {} []),
      .execute (.addRelation ⟨identifier 3, identifier 2, identifier 5, identifier 4⟩ {} []),
      .execute (.deleteRelation (identifier 6)),
      .execute (.updateColumn (identifier 3) (identifier 2) [("name", .str "parent")])]
    (fun seen d => d.store.project.relations.length = 1 ∧ seen.length = 7)
    (by simpa [Action.LeavesHints, Command.LeavesHints] using hpatch) (by simp)
    (by decide +kernel)
  exact ⟨seen, d, reached, hlengths, reached_hints reached⟩

/-- When the other table is deleted instead, the column is still flagged, for its relation to
itself, and still names the table that is gone. -/
theorem reached_hints_stale : ∃ seen d, Reached Action.LeavesHints seen d ∧
    d.store.project.relations.length = 1 ∧
    ∃ t ∈ d.store.project.tables, ∃ c ∈ t.columns, c.isForeignKey = .bool true ∧
      c.referencesTableId ∉ d.store.project.tables.map Table.id ∧
      ∀ r ∈ d.store.project.relations, c.referencesTableId ≠ r.targetTableId := by
  have start := @Reached.start Action.LeavesHints {} {} _ rfl
  exact start.exists_proceed
    [.execute (.addTable "a" []), .execute (.addTable "b" []),
      .execute (.addRelation ⟨identifier 3, identifier 2, identifier 3, identifier 2⟩ {} []),
      .execute (.addRelation ⟨identifier 3, identifier 2, identifier 5, identifier 4⟩ {} []),
      .execute (.deleteTable (identifier 5))]
    (fun _ d => d.store.project.relations.length = 1 ∧
      ∃ t ∈ d.store.project.tables, ∃ c ∈ t.columns, c.isForeignKey = .bool true ∧
        c.referencesTableId ∉ d.store.project.tables.map Table.id ∧
        ∀ r ∈ d.store.project.relations, c.referencesTableId ≠ r.targetTableId)
    (by simp [Action.LeavesHints, Command.LeavesHints]) (by simp) (by decide +kernel)

end SchemaDesk
