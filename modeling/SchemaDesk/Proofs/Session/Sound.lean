import SchemaDesk.Proofs.Session.Run

/-!
# Every state of a session is sound

Whatever is done in a session, the check of the current project accepts, and it accepts every canvas
that undoing or redoing can bring back.
-/

namespace SchemaDesk

/-- An action puts only sound projects in place of a sound one. -/
theorem Action.puts_sound {d : Designer} {q : Project} {ids' : IdSupply} {action : Action}
    (h : action.Puts d q ids') (hd : d.store.project.IsSound)
    (hrestored : ∀ s, action = .execute (.restore s) → Sound s.tables s.relations)
    (hfresh : d.store.ids.FreshFor ids' d.canvas) : q.IsSound := by
  cases action with
  | execute command =>
      obtain ⟨reply, hgives⟩ := h
      exact Command.keeps_sound hgives hd hfresh
        fun s hs => hrestored s (congrArg Action.execute hs)
  | importSql sql =>
      obtain ⟨parsed, hgives⟩ := h
      obtain ⟨-, hsound, rfl⟩ := Designer.importEdit_gives hgives
      exact hsound
  | applySql sql =>
      obtain ⟨parsed, hgives⟩ := h
      exact (Designer.applyEdit_gives hgives).2.1
  | undo => exact h.elim
  | redo => exact h.elim
  | load disk path =>
      obtain ⟨a, hgives⟩ := h
      exact Designer.loadEdit_gives hgives

/-- All canvases shown in a run are sound. -/
theorem Reached.canvases_sound {allowed : Action → Prop} {seen : List Snapshot} {d : Designer}
    (h : Reached allowed seen d) :
    (∀ s ∈ seen, Sound s.tables s.relations) ∧ d.canvas ∈ seen ∧
      ∀ s ∈ d.history.entries, s ∈ seen :=
  h.canvases (fun s => Sound s.tables s.relations) Sound.nil
    fun _ _ _ _ _ hgood hrestored hfresh hputs => Action.puts_sound hputs hgood hrestored hfresh

/-- In every state of a session the check accepts the current project, also with its tables and
relations replaced by those of an entry of the history. -/
theorem reached_integrity {seen : List Snapshot} {d : Designer}
    (h : Reached (fun _ => True) seen d) :
    d.store.project.checkIntegrity = .ok () ∧
      ∀ s ∈ d.history.past ++ d.history.future,
        { d.store.project with tables := s.tables, relations := s.relations }.checkIntegrity =
          .ok () := by
  obtain ⟨hsound, hcanvas, hentries⟩ := h.canvases_sound
  refine ⟨checkIntegrity_eq_ok_iff.2 (hsound _ hcanvas), fun s hs => ?_⟩
  exact checkIntegrity_eq_ok_iff.2 (hsound s (hentries s hs))

/-- A relation that was deleted with its table comes back when this is undone; the state without
them can be redone. -/
theorem reached_integrity_undone : ∃ seen d, Reached (fun _ => True) seen d ∧
    (d.store.project.relations.length = 1 ∧ d.history.future.length = 1) ∧
    d.store.project.checkIntegrity = .ok () ∧
      ∀ s ∈ d.history.past ++ d.history.future,
        { d.store.project with tables := s.tables, relations := s.relations }.checkIntegrity =
          .ok () := by
  have start := @Reached.start (fun _ => True) {} {} _ rfl
  obtain ⟨seen, d, reached, hlengths⟩ := start.exists_proceed
    [.execute (.addTable "orders" []), .execute (.addTable "lines" []),
      .execute (.addRelation ⟨identifier 5, identifier 4, identifier 3, identifier 2⟩ {} []),
      .execute (.deleteTable (identifier 3)), .undo]
    (fun _ d => d.store.project.relations.length = 1 ∧ d.history.future.length = 1)
    (by simp) (by simp) (by decide +kernel)
  exact ⟨seen, d, reached, hlengths, reached_integrity reached⟩

end SchemaDesk
