import SchemaDesk.Proofs.Edit.Typed
import SchemaDesk.Proofs.Session.Run

/-!
# Sessions with typed tables

What a text declares is typed, and so is what is merged.  So in a session whose commands take in
typed tables and references only, and which loads files of such tables only, all tables are typed in
every canvas that is shown.
-/

namespace SchemaDesk

open Minting

/-- Whether an action takes in typed tables and references only. -/
def Action.TakesText : Action → Prop
  | .execute command => command.TakesText
  | .load disk path => ∀ document ids p ids', Files.readDocument disk path = .ok document →
      (Project.ofDocument document).Gives ids p ids' → ∀ t ∈ p.tables, t.IsTyped
  | _ => True

/-- A project that is loaded from a document was read from it. -/
theorem Designer.loadEdit_reads {document : Except Failure Value} {p q : Project}
    {ids ids' : IdSupply} {a : Unit}
    (h : (loadEdit document p).Gives ids (a, some q) ids') :
    ∃ stored mid, document = .ok stored ∧ (Project.ofDocument stored).Gives ids q mid := by
  obtain ⟨stored, mid, hdocument, h⟩ := gives_bind.1 h
  obtain ⟨hstored, rfl⟩ := gives_ofExcept.1 hdocument
  obtain ⟨q', later, hread, hload⟩ := gives_bind.1 h
  cases (Edit.load_gives hload).1
  exact ⟨stored, later, hstored, hread⟩

/-- An action that takes in typed tables and references only puts only projects of typed tables in
place of such a project. -/
theorem Action.puts_typed {d : Designer} {q : Project} {ids' : IdSupply} {action : Action}
    (h : action.Puts d q ids') (htakes : action.TakesText)
    (hd : ∀ t ∈ d.canvas.tables, t.IsTyped)
    (hrestored : ∀ s, action = .execute (.restore s) → ∀ t ∈ s.tables, t.IsTyped) :
    ∀ t ∈ q.tables, t.IsTyped := by
  cases action with
  | execute command =>
      obtain ⟨reply, hgives⟩ := h
      exact Command.keeps_typed hgives htakes hd
        fun s hs => hrestored s (congrArg Action.execute hs)
  | importSql sql =>
      obtain ⟨parsed, hgives⟩ := h
      obtain ⟨hparse, -, rfl⟩ := Designer.importEdit_gives hgives
      intro t ht
      rcases List.mem_append.1 ht with ht | ht
      · exact hd t ht
      · exact (Sql.parse_declares hparse).isTyped t ht
  | applySql sql =>
      obtain ⟨parsed, hgives⟩ := h
      obtain ⟨hparse, -, rfl⟩ := Designer.applyEdit_gives hgives
      exact Edit.Merge.merged_isTyped hd (Sql.parse_declares hparse).isTyped
  | undo => exact h.elim
  | redo => exact h.elim
  | load disk path =>
      obtain ⟨a, hgives⟩ := h
      obtain ⟨stored, later, hdocument, hread⟩ := Designer.loadEdit_reads hgives
      exact htakes stored _ q later hdocument hread

/-- All tables of all canvases shown in such a session are typed. -/
theorem Reached.canvases_typed {seen : List Snapshot} {d : Designer}
    (h : Reached Action.TakesText seen d) : ∀ s ∈ seen, ∀ t ∈ s.tables, t.IsTyped :=
  (h.canvases (fun s => ∀ t ∈ s.tables, t.IsTyped) (List.forall_mem_nil _)
    fun _ _ _ _ htakes hgood hrestored _ hputs =>
      Action.puts_typed hputs htakes hgood hrestored).1

end SchemaDesk
