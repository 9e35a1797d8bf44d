import SchemaDesk.Proofs.History
import SchemaDesk.Proofs.Session.Run

/-!
# The history keeps step with the canvas

A designer tells its history of every canvas that it shows, also of those that undoing and redoing
bring back.  So the two could drift apart in two ways: a canvas could go unrecorded, or one that was
brought back could be recorded once more, which would forget what was undone.  `Designer.InStep`
says that neither happens: the recorder is subscribed, once, and the current entry of the history
shows the canvas.

In step, a designer moves its history exactly as the history moves by itself (`InStep.undo` and
`InStep.redo`), so the laws of undoing and redoing carry over.  Main statement:
`reachable_history_in_step`, for every state of a session.
-/

namespace SchemaDesk

/-! ## What becomes of the project -/

/-- Whether two projects have the same identity and are viewed in the same way.  Their canvases may
differ. -/
def Project.SameSettings (p q : Project) : Prop :=
  p.id = q.id ∧ p.name = q.name ∧ p.database = q.database ∧ p.zoom = q.zoom ∧ p.pan = q.pan

theorem Project.sameSettings_withSnapshot (p : Project) (s : Snapshot) :
    (p.withSnapshot s).SameSettings p :=
  ⟨rfl, rfl, rfl, rfl, rfl⟩

theorem Project.SameSettings.refl (p : Project) : p.SameSettings p :=
  ⟨rfl, rfl, rfl, rfl, rfl⟩

theorem Snapshot.same_iff {a b : Snapshot} :
    a.same b = true ↔ a.toValue.canon = b.toValue.canon :=
  Value.same_iff

/-- Snapshots that show the canvas of a third one show the same canvas. -/
theorem Snapshot.same_of_same {a b c : Snapshot} (hb : a.same b = true) (hc : a.same c = true) :
    b.same c = true := by
  rw [same_iff] at *
  exact hb.symm.trans hc

/-! ## Designers in step -/

namespace Designer

variable {d : Designer}

/-- The recorder is subscribed once, and the current entry of the history shows the canvas. -/
structure InStep (d : Designer) : Prop where
  listens : d.store.listeners = [.recorder]
  shows : d.history.shows d.canvas = true

/-- The designer with another canvas and another history, and otherwise as it is. -/
def moved (d : Designer) (s : Snapshot) (h : History) : Designer :=
  { d with store := { d.store with project := d.store.project.withSnapshot s }, history := h }

/-- An edit either changes neither project nor history, or the history records the new canvas. -/
theorem perform_recorded {α : Type} (listens : d.store.listeners = [.recorder]) (edit : Edit α) :
    (d.perform edit).designer.store.listeners = [.recorder] ∧
      ((d.perform edit).designer.canvas = d.canvas ∧
          (d.perform edit).designer.history = d.history ∨
        (d.perform edit).designer.history =
          (d.history.push (d.perform edit).designer.canvas).2) := by
  rcases hrun : (edit d.store.project).runFrom d.store.ids with ⟨failure | ⟨a, _ | q⟩, ids⟩
  · rw [perform_of_error hrun]
    exact ⟨listens, .inl ⟨rfl, rfl⟩⟩
  · rw [perform_of_none hrun]
    exact ⟨listens, .inl ⟨rfl, rfl⟩⟩
  · rw [perform_of_some hrun, listens]
    exact ⟨rfl, .inr rfl⟩

namespace InStep

/-- The current entry is there, and shows the canvas. -/
theorem current (hd : d.InStep) :
    ∃ c, d.history.current? = some c ∧ c.same d.canvas = true := by
  have hshows := hd.shows
  rw [History.shows] at hshows
  cases hcurrent : d.history.current? with
  | none =>
      rw [hcurrent] at hshows
      cases hshows
  | some c =>
      rw [hcurrent] at hshows
      exact ⟨c, rfl, hshows⟩

theorem perform {α : Type} (hd : d.InStep) (edit : Edit α) :
    (d.perform edit).designer.InStep := by
  obtain ⟨listens, ⟨hcanvas, hhistory⟩ | hhistory⟩ := perform_recorded hd.listens edit
  · refine ⟨listens, ?_⟩
    rw [hcanvas, hhistory]
    exact hd.shows
  · refine ⟨listens, ?_⟩
    rw [hhistory]
    exact History.shows_push _ _

theorem of_current {s : Snapshot} {h : History} (hd : d.InStep) (hs : h.current? = some s) :
    (d.moved s h).InStep := by
  refine ⟨hd.listens, ?_⟩
  show h.shows s = true
  rw [History.shows_of_current hs, Snapshot.same_self]

/-- Going to an entry that the moved history has as its current one: the store announces it, and
the history recognises it. -/
theorem travelled {s : Snapshot} {h : History} (hd : d.InStep) (hs : h.current? = some s) :
    d.travelled (some s, h) = d.moved s h := by
  have hshown : h.shows s = true := by
    rw [History.shows_of_current hs, Snapshot.same_self]
  have hpush : (h.push s).2 = h := History.push_shown hshown
  have hrun : (Edit.restore s d.store.project).runFrom d.store.ids =
      (.ok ((), some (d.store.project.withSnapshot s)), d.store.ids) := rfl
  simp [Designer.travelled, Designer.perform, Store.perform, hrun, Store.commit, Store.afterCalls,
    Listener.isOnce, recorded, hd.listens, hpush, Designer.moved]

/-- In step, a successful undo goes to the entry before the current one. -/
theorem after_undo_eq (hd : d.InStep) (hundo : d.history.canUndo = true) :
    ∃ c, d.history.undo.1 = some c ∧ d.history.back.current? = some c ∧
      d.after .undo = d.moved c d.history.back := by
  obtain ⟨c, hgives, hcurrent⟩ := History.undo_current hundo
  have hpair : d.history.undo = (some c, d.history.back) := Prod.ext hgives rfl
  have hcurrent : d.history.back.current? = some c := hcurrent
  refine ⟨c, hgives, hcurrent, ?_⟩
  rw [Designer.after_undo, hpair, hd.travelled hcurrent]

/-- In step, undoing moves the history as it moves by itself, and keeps step. -/
theorem undo (hd : d.InStep) :
    (d.after .undo).InStep ∧ (d.after .undo).history = d.history.back ∧
      (d.after .undo).store.project.SameSettings d.store.project := by
  cases hundo : d.history.canUndo with
  | false =>
      rw [Designer.after_undo, History.back, History.undo_of_not_canUndo hundo]
      exact ⟨⟨hd.listens, hd.shows⟩, rfl, .refl _⟩
  | true =>
      obtain ⟨c, -, hcurrent, heq⟩ := hd.after_undo_eq hundo
      rw [heq]
      exact ⟨hd.of_current hcurrent, rfl, Project.sameSettings_withSnapshot _ _⟩

/-- In step, redoing moves the history as it moves by itself, and keeps step. -/
theorem redo (hd : d.InStep) :
    (d.after .redo).InStep ∧ (d.after .redo).history = d.history.forth ∧
      (d.after .redo).store.project.SameSettings d.store.project := by
  rw [after_redo]
  rcases hredo : d.history.redo with ⟨_ | c, h⟩
  · have hsame : h = d.history := by
      rw [← History.redo_of_none (congrArg Prod.fst hredo), hredo]
    rw [History.forth, hredo, hsame]
    exact ⟨⟨hd.listens, hd.shows⟩, rfl, .refl _⟩
  · have hcurrent : d.history.redo.2.current? = some c := History.redo_current (by rw [hredo])
    rw [hredo] at hcurrent
    rw [History.forth, hredo, hd.travelled hcurrent]
    exact ⟨hd.of_current hcurrent, rfl, Project.sameSettings_withSnapshot _ _⟩

/-- Every action keeps step. -/
theorem after (hd : d.InStep) (action : Action) : (d.after action).InStep := by
  cases action with
  | execute command => exact hd.perform _
  | importSql sql => exact hd.perform _
  | applySql sql => exact hd.perform _
  | undo => exact hd.undo.1
  | redo => exact hd.redo.1
  | load disk path =>
      have hperformed := hd.perform (loadEdit (Files.readDocument disk path))
      simp only [Designer.after, load]
      cases (d.perform (loadEdit (Files.readDocument disk path))).result with
      | error failure => exact hperformed
      | ok a =>
          -- the cleared history takes the loaded canvas in
          exact ⟨hperformed.listens, History.shows_push _ _⟩

/-- In step, the canvas is determined by the history, up to how it is written. -/
theorem canvas_same {e : Designer} (hd : d.InStep) (he : e.InStep)
    (hhistory : e.history = d.history) : e.canvas.same d.canvas = true := by
  obtain ⟨c, hc, hcd⟩ := hd.current
  obtain ⟨c', hc', hce⟩ := he.current
  rw [hhistory, hc] at hc'
  cases hc'
  exact Snapshot.same_of_same hce hcd

/-- An action that keeps step and moves the history in some way can be taken several times. -/
theorem repeated {action : Action} {move : History → History}
    (hmove : ∀ e : Designer, e.InStep →
      (e.after action).InStep ∧ (e.after action).history = move e.history)
    (hd : d.InStep) (k : Nat) :
    ((Designer.after · action)^[k] d).InStep ∧
      ((Designer.after · action)^[k] d).history = move^[k] d.history := by
  induction k with
  | zero => exact ⟨hd, rfl⟩
  | succ k ih =>
      obtain ⟨hstep, hhistory⟩ := hmove _ ih.1
      rw [Function.iterate_succ_apply', Function.iterate_succ_apply', ← ih.2]
      exact ⟨hstep, hhistory⟩

theorem undos (hd : d.InStep) (k : Nat) :
    ((Designer.after · .undo)^[k] d).InStep ∧
      ((Designer.after · .undo)^[k] d).history = History.back^[k] d.history :=
  repeated (fun _ he => ⟨he.undo.1, he.undo.2.1⟩) hd k

theorem redos (hd : d.InStep) (k : Nat) :
    ((Designer.after · .redo)^[k] d).InStep ∧
      ((Designer.after · .redo)^[k] d).history = History.forth^[k] d.history :=
  repeated (fun _ he => ⟨he.redo.1, he.redo.2.1⟩) hd k

end InStep

/-- Undoing answers whether there was an entry to go back to. -/
theorem undo_result (d : Designer) :
    d.undo.result = .ok (decide (1 < d.history.past.length)) := by
  rw [undo]
  cases hundo : d.history.canUndo with
  | false =>
      rw [History.undo_of_not_canUndo hundo]
      exact congrArg Except.ok hundo.symm
  | true =>
      obtain ⟨c, hgives, -⟩ := History.undo_current hundo
      have hpair : d.history.undo = (some c, d.history.back) := Prod.ext hgives rfl
      rw [hpair]
      exact congrArg Except.ok hundo.symm

/-- As long as undoing answers that it went back, there were entries to go back to. -/
theorem InStep.lt_length_past (hd : d.InStep) {k : Nat}
    (hundone : ∀ j < k, ((Designer.after · .undo)^[j] d).undo.result = .ok true) :
    k < d.history.past.length := by
  cases k with
  | zero =>
      obtain ⟨c, hc, -⟩ := hd.current
      exact List.length_pos_of_mem (List.mem_of_getLast? hc)
  | succ k =>
      have hk := InStep.lt_length_past hd fun j hj => hundone j (Nat.lt_succ_of_lt hj)
      have hlast := hundone k (Nat.lt_succ_self k)
      rw [undo_result, (hd.undos k).2] at hlast
      have hlong := of_decide_eq_true (Except.ok.inj hlast)
      rw [History.past_back hk, List.length_take] at hlong
      omega

end Designer

/-- Whether an action edits the project, by a command or by a SQL text.  The others move through the
history or start it anew. -/
def Action.IsEdit : Action → Prop
  | .execute _ | .importSql _ | .applySql _ => True
  | .undo | .redo | .load _ _ => False

namespace Designer

variable {d : Designer}

/-- In step, undoing right after an edit that changed the canvas brings the canvas back that was
shown before. -/
theorem InStep.undo_edit (hd : d.InStep) {action : Action} (hedit : action.IsEdit)
    (hlimit : 2 ≤ d.history.limit) (hchanged : (d.after action).canvas.same d.canvas = false) :
    ((d.after action).after .undo).canvas.same d.canvas = true := by
  have hnext : (d.after action).InStep := hd.after action
  have hrecorded : (d.after action).canvas = d.canvas ∧ (d.after action).history = d.history ∨
      (d.after action).history = (d.history.push (d.after action).canvas).2 := by
    cases action with
    | execute command => exact (perform_recorded hd.listens _).2
    | importSql sql => exact (perform_recorded hd.listens _).2
    | applySql sql => exact (perform_recorded hd.listens _).2
    | undo => exact hedit.elim
    | redo => exact hedit.elim
    | load disk path => exact hedit.elim
  obtain ⟨c, hc, hsame⟩ := hd.current
  rcases hrecorded with ⟨hcanvas, -⟩ | hpush
  · rw [hcanvas, Snapshot.same_self] at hchanged
    cases hchanged
  · -- the new canvas was recorded, so the entry before it is the one that showed the old canvas
    have hnew : d.history.shows (d.after action).canvas = false := by
      rw [History.shows_of_current hc, ← Bool.not_eq_true]
      intro hshown
      rw [Snapshot.same_of_same hshown hsame] at hchanged
      cases hchanged
    have hgives : (d.after action).history.undo.1 = some c := by
      rw [hpush]
      exact History.undo_push hc hnew hlimit
    cases hundo : (d.after action).history.canUndo with
    | false =>
        rw [History.undo_of_not_canUndo hundo] at hgives
        cases hgives
    | true =>
        obtain ⟨c', hgives', -, heq⟩ := hnext.after_undo_eq hundo
        rw [hgives] at hgives'
        cases hgives'
        rw [heq]
        exact hsame

/-! ## Every state of a session -/

/-- A designer that was created and has taken some actions, which may have failed. -/
inductive IsReachable : Designer → Prop where
  | start {config : Config} {ids : IdSupply} {d : Designer}
      (created : ofConfig config ids = .ok d) : IsReachable d
  | step {d : Designer} (reachable : IsReachable d) (action : Action) : IsReachable (d.after action)

/-- The empty canvas of a new designer is the first entry of its history. -/
theorem inStep_ofConfig {config : Config} {ids : IdSupply} (created : ofConfig config ids = .ok d) :
    d.InStep := by
  obtain ⟨h, -, created⟩ := Except.bind_eq_ok.1 created
  obtain ⟨editor, -, created⟩ := Except.bind_eq_ok.1 created
  cases created
  exact ⟨rfl, History.shows_push _ _⟩

theorem IsReachable.inStep (h : d.IsReachable) : d.InStep := by
  induction h with
  | start created => exact inStep_ofConfig created
  | step _ action ih => exact ih.after action

/-- In every state of a session the current entry of the history shows the canvas; undoing succeeds
exactly when there is an entry before it; redoing as often as was undone brings canvas and history
back; undoing an edit that changed the canvas takes it back, unless the history has room for one
entry only; and neither undoing nor redoing changes what does not belong to the canvas. -/
theorem reachable_history_in_step (h : d.IsReachable) :
    (∃ c, d.history.current? = some c ∧ c.same d.canvas = true) ∧
    d.undo.result = .ok (decide (1 < d.history.past.length)) ∧
    (∀ k, (∀ j < k, ((after · .undo)^[j] d).undo.result = .ok true) →
      ((after · .redo)^[k] ((after · .undo)^[k] d)).canvas.same d.canvas = true ∧
        ((after · .redo)^[k] ((after · .undo)^[k] d)).history = d.history) ∧
    (∀ action : Action, action.IsEdit → 2 ≤ d.history.limit →
      (d.after action).canvas.same d.canvas = false →
        ((d.after action).after .undo).canvas.same d.canvas = true) ∧
    (d.after .undo).store.project.SameSettings d.store.project ∧
    (d.after .redo).store.project.SameSettings d.store.project := by
  have hd := h.inStep
  refine ⟨hd.current, undo_result d, fun k hundone => ?_,
    fun action hedit hlimit hchanged => hd.undo_edit hedit hlimit hchanged, hd.undo.2.2,
    hd.redo.2.2⟩
  obtain ⟨hundos, hback⟩ := hd.undos k
  obtain ⟨hredos, hforth⟩ := hundos.redos k
  rw [hback, History.forth_back (hd.lt_length_past hundone)] at hforth
  exact ⟨hd.canvas_same hredos hforth, hforth⟩

/-- A history with room for two entries has dropped the empty canvas here.  The table added last can
be undone and redone, and deleting the other table can be undone. -/
theorem reachable_history_in_step_trimmed : ∃ d : Designer, d.IsReachable ∧
    (d.history.limit = 2 ∧ d.history.past.length = 2) ∧
    d.undo.result = .ok true ∧
    ((d.after .undo).after .redo).history = d.history ∧
    ((d.after (.execute (.deleteTable (identifier 3)))).canvas.same d.canvas = false ∧
      ((d.after (.execute (.deleteTable (identifier 3)))).after .undo).canvas.same d.canvas =
        true) := by
  have start := @IsReachable.start { maxHistory := .int 2 } {} _ rfl
  obtain ⟨d, reachable, hsize, hchanged⟩ : ∃ d : Designer, d.IsReachable ∧
      (d.history.limit = 2 ∧ d.history.past.length = 2) ∧
      (d.after (.execute (.deleteTable (identifier 3)))).canvas.same d.canvas = false :=
    ⟨_, (start.step (.execute (.addTable "orders" []))).step (.execute (.addTable "lines" [])),
      by decide +kernel⟩
  obtain ⟨-, hresult, hback, hedit, -⟩ := reachable_history_in_step reachable
  rw [hsize.2] at hresult
  have hundone : ∀ j < 1, ((after · .undo)^[j] d).undo.result = .ok true := by
    intro j hj
    obtain rfl := Nat.lt_one_iff.1 hj
    exact hresult
  exact ⟨d, reachable, hsize, hresult, (hback 1 hundone).2, hchanged,
    hedit _ trivial (Nat.le_of_eq hsize.1.symm) hchanged⟩

end Designer

end SchemaDesk
