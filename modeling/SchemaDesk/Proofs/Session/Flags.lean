import SchemaDesk.Proofs.Edit.Flags
import SchemaDesk.Proofs.Session.Sound

/-!
# Foreign-key flags in a session

In a session that only its own edits, merges and imports bring tables into, a column is flagged as a
foreign key exactly when a relation starts at it.  Loading a project and appending given tables
would bring flags from elsewhere, so such a session does neither.
-/

namespace SchemaDesk

/-- Whether an action leaves the flags to the relations. -/
def Action.LeavesFlags : Action → Prop
  | .execute command => command.LeavesFlags
  | .load _ _ => False
  | _ => True

/-- An action that leaves the flags to the relations puts only projects with exact flags in place of
such a project. -/
theorem Action.puts_flagged {d : Designer} {q : Project} {ids' : IdSupply} {action : Action}
    (h : action.Puts d q ids') (hleaves : action.LeavesFlags)
    (hd : Flagged d.store.project.tables d.store.project.relations)
    (hrestored : ∀ s, action = .execute (.restore s) → Flagged s.tables s.relations)
    (hfresh : d.store.ids.FreshFor ids' d.canvas) : Flagged q.tables q.relations := by
  cases action with
  | execute command =>
      obtain ⟨reply, hgives⟩ := h
      exact Command.keeps_flagged hgives hleaves hd hfresh
        fun s hs => hrestored s (congrArg Action.execute hs)
  | importSql sql =>
      obtain ⟨parsed, hgives⟩ := h
      obtain ⟨hparse, hsound, rfl⟩ := Designer.importEdit_gives hgives
      exact (Sql.parse_declares hparse).flagged_beside hd hsound
  | applySql sql =>
      obtain ⟨parsed, hgives⟩ := h
      obtain ⟨hparse, hsound, rfl⟩ := Designer.applyEdit_gives hgives
      exact Edit.merged_flagged hd.found
        (fun t ht => Value.isNan_of_text ((Sql.parse_declares hparse).tableId ht)) hsound
  | undo => exact h.elim
  | redo => exact h.elim
  | load disk path => exact hleaves.elim

/-- In every state of a session that leaves the flags to the relations, a column is flagged exactly
when a relation starts at it. -/
theorem reached_flags_exact {seen : List Snapshot} {d : Designer}
    (h : Reached Action.LeavesFlags seen d) :
    ∀ t ∈ d.store.project.tables, ∀ c ∈ t.columns,
      (c.isForeignKey.isTruthy = true ↔
        ∃ r ∈ d.store.project.relations, r.startsAt t.id c.id = true) := by
  have hempty : Flagged [] [] :=
    ⟨Sound.nil, fun t ht => absurd ht List.not_mem_nil, FlagsExact.nil⟩
  obtain ⟨hflagged, hcanvas, -⟩ := h.canvases (fun s => Flagged s.tables s.relations) hempty
    fun _ _ _ _ hleaves hgood hrestored hfresh hputs =>
      Action.puts_flagged hputs hleaves hgood hrestored hfresh
  exact (hflagged _ hcanvas).flags

/-- Two relations start at one column here; one of them goes with its table, which is then brought
back by undoing, and the flag stays throughout. -/
theorem reached_flags_exact_shared : ∃ seen d, Reached Action.LeavesFlags seen d ∧
    (d.store.project.relations.length = 2 ∧ d.history.future.length = 1) ∧
    ∀ t ∈ d.store.project.tables, ∀ c ∈ t.columns,
      (c.isForeignKey.isTruthy = true ↔
        ∃ r ∈ d.store.project.relations, r.startsAt t.id c.id = true) := by
  have start := @Reached.start Action.LeavesFlags {} {} _ rfl
  obtain ⟨seen, d, reached, hlengths⟩ := start.exists_proceed
    [.importSql ("CREATE TABLE a (id INT PRIMARY KEY); CREATE TABLE b (id INT PRIMARY KEY); " ++
        "CREATE TABLE c (x INT REFERENCES a, FOREIGN KEY (x) REFERENCES b);"),
      .execute (.deleteTable (identifier 5)), .undo]
    (fun _ d => d.store.project.relations.length = 2 ∧ d.history.future.length = 1)
    (by simp [Action.LeavesFlags, Command.LeavesFlags]) (by simp)
    (by rw [Text.ofString_ofList, Text.ofString_ofList]; decide +kernel)
  exact ⟨seen, d, reached, hlengths, reached_flags_exact reached⟩

end SchemaDesk
