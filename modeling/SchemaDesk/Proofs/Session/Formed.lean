import SchemaDesk.Proofs.Session.Sound
import SchemaDesk.Proofs.Session.Typed
import SchemaDesk.Proofs.Sql.Names

/-!
# What a session makes up a schema of

In a session, good columns and proper relations come in by commands, by texts and from files.  If
all that comes in is good, the schema is formed in every canvas that is shown, since no edit spoils
it and undoing brings back what was formed before.
-/

namespace SchemaDesk

/-- Whether all columns that an action brings in are good, and its relations proper. -/
def Action.Brings (good : Column → Prop) (proper : Relation → Prop) : Action → Prop
  | .execute command => command.Brings good proper
  | .importSql sql | .applySql sql =>
      ∀ s ∈ Sql.statements sql, ∀ clause ∈ s.columns, ∀ c, Sql.MadeFrom clause c → good c
  | .load disk path => ∀ document ids p ids', Files.readDocument disk path = .ok document →
      (Project.ofDocument document).Gives ids p ids' → Formed good proper p.tables p.relations
  | .undo | .redo => True

section Run

variable {good : Column → Prop} {proper : Relation → Prop}

/-- An action that brings in good columns and proper relations puts only formed schemas in place of
a formed and sound one. -/
theorem Action.puts_formed (hlasting : Edit.Lasting good proper)
    (hlinks : ∀ (l : Sql.Link) id, proper (l.relation id)) {d : Designer} {q : Project}
    {ids' : IdSupply} {action : Action} (h : action.Puts d q ids')
    (hbrings : action.Brings good proper) (hsound : d.store.project.IsSound)
    (hd : Formed good proper d.canvas.tables d.canvas.relations)
    (hrestored : ∀ s, action = .execute (.restore s) → Formed good proper s.tables s.relations) :
    Formed good proper q.tables q.relations := by
  cases action with
  | execute command =>
      obtain ⟨reply, hgives⟩ := h
      exact Command.keeps_formed hlasting hgives hbrings hsound hd
        fun s hs => hrestored s (congrArg Action.execute hs)
  | importSql sql =>
      obtain ⟨parsed, hgives⟩ := h
      obtain ⟨hparse, -, rfl⟩ := Designer.importEdit_gives hgives
      exact Formed.append hd (Sql.parse_formed hparse hbrings hlinks)
  | applySql sql =>
      obtain ⟨parsed, hgives⟩ := h
      obtain ⟨hparse, -, rfl⟩ := Designer.applyEdit_gives hgives
      exact Edit.Merge.merged_formed hlasting hd (Sql.parse_formed hparse hbrings hlinks)
  | undo => exact h.elim
  | redo => exact h.elim
  | load disk path =>
      obtain ⟨a, hgives⟩ := h
      obtain ⟨stored, later, hdocument, hread⟩ := Designer.loadEdit_reads hgives
      exact hbrings stored _ q later hdocument hread

/-- All canvases shown are formed, if whatever comes in is. -/
theorem Reached.canvases_formed (hlasting : Edit.Lasting good proper)
    (hlinks : ∀ (l : Sql.Link) id, proper (l.relation id)) {allowed : Action → Prop}
    (hallowed : ∀ action, allowed action → action.Brings good proper) {seen : List Snapshot}
    {d : Designer} (h : Reached allowed seen d) :
    ∀ s ∈ seen, Formed good proper s.tables s.relations := by
  refine fun s hs => ((h.canvases (fun s => Sound s.tables s.relations ∧
    Formed good proper s.tables s.relations) ⟨Sound.nil, Formed.nil⟩ ?_).1 s hs).2
  rintro d action q ids' isAllowed ⟨hsound, hformed⟩ hrestored hfresh hputs
  exact ⟨Action.puts_sound hputs hsound (fun s hs => (hrestored s hs).1) hfresh,
    Action.puts_formed hlasting hlinks hputs (hallowed action isAllowed) hsound hformed
      fun s hs => (hrestored s hs).2⟩

end Run

end SchemaDesk
