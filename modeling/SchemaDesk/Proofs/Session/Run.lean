import SchemaDesk.Designer
import SchemaDesk.Proofs.Edit.Sound
import SchemaDesk.Proofs.History

/-!
# Runs of a designer

A session starts with an empty project and takes one action after the other, each of which may fail.
`Reached` relates a state of a session to the canvases that were shown on the way: those are the
ones of which snapshots can have been taken, and the ones that the undo history can hold.

Undoing and redoing bring entries of the history back, so what a run keeps has to hold of all
canvases shown so far and not only of the current one.  `Reached.canvases` packages this induction:
it is enough that every action turns a good canvas into a good one.  What is good may also depend on
the canvases that were shown before (`Reached.canvases_within`).
-/

namespace SchemaDesk

/-! ## Edits by a text or a file -/

namespace Designer

open Minting

variable {p q : Project} {ids ids' : IdSupply} {sql : Text} {parsed : Parsed}

/-- Importing a text succeeds exactly if it can be read, declares a table and leaves none of them
empty, and if appending what it declares gives a sound project. -/
theorem importEdit_gives_iff {next : Option Project} :
    (importEdit sql p).Gives ids (parsed, next) ids' ↔
      (Sql.parse sql).Gives ids parsed ids' ∧
      (parsed.foundStatements = true ∧ parsed.emptyTables = []) ∧
      Sound (p.tables ++ parsed.tables) (p.relations ++ parsed.relations) ∧
      next = some { p with
        tables := p.tables ++ parsed.tables, relations := p.relations ++ parsed.relations } := by
  constructor
  · intro h
    obtain ⟨parsed', mid, hparse, h⟩ := gives_bind.1 h
    cases hfound : parsed'.foundStatements with
    | false =>
        simp only [hfound] at h
        exact absurd h gives_report
    | true =>
        cases hempty : parsed'.emptyTables with
        | cons name names =>
            simp only [hfound, hempty] at h
            exact absurd h gives_report
        | nil =>
            simp only [hfound, hempty] at h
            obtain ⟨⟨a, next'⟩, later, happend, h⟩ := gives_bind.1 h
            obtain ⟨heq, rfl⟩ := gives_pure.1 h
            cases heq
            obtain ⟨hsound, hnext, rfl⟩ := Edit.append_gives.1 happend
            exact ⟨hparse, ⟨hfound, hempty⟩, hsound, hnext⟩
  · rintro ⟨hparse, ⟨hfound, hempty⟩, hsound, rfl⟩
    refine gives_bind.2 ⟨parsed, ids', hparse, ?_⟩
    simp only [hfound, hempty]
    exact gives_bind.2
      ⟨((), _), ids', Edit.append_gives.2 ⟨hsound, rfl, rfl⟩, gives_pure.2 ⟨rfl, rfl⟩⟩

/-- Importing a text appends what it declares, if this gives a sound project. -/
theorem importEdit_gives (h : (importEdit sql p).Gives ids (parsed, some q) ids') :
    (Sql.parse sql).Gives ids parsed ids' ∧
      Sound (p.tables ++ parsed.tables) (p.relations ++ parsed.relations) ∧
      q = { p with
        tables := p.tables ++ parsed.tables, relations := p.relations ++ parsed.relations } := by
  obtain ⟨hparse, -, hsound, hnext⟩ := importEdit_gives_iff.1 h
  exact ⟨hparse, hsound, Option.some.inj hnext⟩

/-- Applying a text merges what it declares, if this gives a sound project. -/
theorem applyEdit_gives (h : (applyEdit sql p).Gives ids (parsed, some q) ids') :
    (Sql.parse sql).Gives ids parsed ids' ∧ q.IsSound ∧
      q = Edit.Merge.merged p parsed.tables parsed.relations := by
  obtain ⟨parsed', mid, hparse, h⟩ := gives_bind.1 h
  split at h
  · obtain ⟨heq, -⟩ := gives_pure.1 h
    cases heq
  · obtain ⟨⟨a, next⟩, later, hmerge, h⟩ := gives_bind.1 h
    obtain ⟨heq, rfl⟩ := gives_pure.1 h
    cases heq
    obtain ⟨-, hsound, hnext, rfl⟩ := Edit.merge_gives.1 hmerge
    cases hnext
    exact ⟨hparse, hsound, rfl⟩

/-- Loading puts a project in place, and a sound one. -/
theorem loadEdit_gives_some {document : Except Failure Value} {a : Unit} {next : Option Project}
    (h : (loadEdit document p).Gives ids (a, next) ids') : ∃ q, next = some q ∧ q.IsSound := by
  obtain ⟨stored, _, -, h⟩ := gives_bind.1 h
  obtain ⟨q, _, -, hload⟩ := gives_bind.1 h
  obtain ⟨hnext, hsound, -⟩ := Edit.load_gives hload
  exact ⟨q, hnext, hsound⟩

/-- What is loaded is sound. -/
theorem loadEdit_gives {document : Except Failure Value} {a : Unit}
    (h : (loadEdit document p).Gives ids (a, some q) ids') : q.IsSound := by
  obtain ⟨q', hnext, hsound⟩ := loadEdit_gives_some h
  cases hnext
  exact hsound

end Designer

/-! ## Actions -/

/-- What a designer can be asked for. -/
inductive Action where
  | execute (command : Command)
  | importSql (sql : Text)
  | applySql (sql : Text)
  | undo
  | redo
  | load (disk : Disk) (path : Text)

namespace Designer

/-- The designer after an action, which may have failed. -/
def after (d : Designer) : Action → Designer
  | .execute command => (d.execute command).designer
  | .importSql sql => (d.importSql sql).designer
  | .applySql sql => (d.applySql sql).designer
  | .undo => d.undo.designer
  | .redo => d.redo.designer
  | .load disk path => (d.load disk path).designer

/-- The canvas of the current project. -/
def canvas (d : Designer) : Snapshot :=
  d.store.project.snapshot

theorem entries_recorded {h : History} {a : Announcement} {s : Snapshot}
    (hs : s ∈ (recorded h a).entries) : s ∈ h.entries ∨ s = a.project.snapshot := by
  rw [recorded] at hs
  generalize a.called.filter (· = .recorder) = recorders at hs
  induction recorders generalizing h with
  | nil => exact .inl hs
  | cons l recorders ih =>
      rcases ih hs with hs | hs
      · exact History.entries_push hs
      · exact .inr hs

section Performing

variable {α : Type} {d : Designer} {edit : Edit α} {failure : Failure} {a : α} {q : Project}
  {ids' : IdSupply}

/-- An edit that fails takes nothing but the identifiers that it drew. -/
theorem perform_of_error
    (h : (edit d.store.project).runFrom d.store.ids = (.error failure, ids')) :
    d.perform edit = ⟨.error failure, { d with store := { d.store with ids := ids' } }, []⟩ := by
  simp only [perform, Store.perform, h, List.foldl_nil]

/-- So does one that succeeds and puts nothing in place. -/
theorem perform_of_none
    (h : (edit d.store.project).runFrom d.store.ids = (.ok (a, none), ids')) :
    d.perform edit = ⟨.ok a, { d with store := { d.store with ids := ids' } }, []⟩ := by
  simp only [perform, Store.perform, h, List.foldl_nil]

/-- An edit that puts a project in place calls all listeners, among them the history. -/
theorem perform_of_some
    (h : (edit d.store.project).runFrom d.store.ids = (.ok (a, some q), ids')) :
    d.perform edit =
      ⟨.ok a,
        { d with
          store := { d.store with
            project := q
            ids := ids'
            listeners := Store.afterCalls d.store.listeners d.store.listeners }
          history := recorded d.history ⟨q, d.store.listeners⟩ },
        [⟨q, d.store.listeners⟩]⟩ := by
  simp only [perform, Store.perform, h, Store.commit, List.foldl_cons, List.foldl_nil]

end Performing

/-- An edit either puts a project in place, whose canvas the history may take in, or it leaves both
the project and the history as they were. -/
theorem perform_cases {α : Type} (d : Designer) (edit : Edit α) :
    ((d.perform edit).designer.canvas = d.canvas ∧
        (d.perform edit).designer.history = d.history) ∨
      ∃ a, (edit d.store.project).Gives d.store.ids
          (a, some (d.perform edit).designer.store.project)
          (d.perform edit).designer.store.ids ∧
        ∀ s ∈ (d.perform edit).designer.history.entries,
          s ∈ d.history.entries ∨ s = (d.perform edit).designer.canvas := by
  rcases hrun : (edit d.store.project).runFrom d.store.ids with ⟨failure | ⟨a, _ | q⟩, ids⟩
  · rw [perform_of_error hrun]
    exact .inl ⟨rfl, rfl⟩
  · rw [perform_of_none hrun]
    exact .inl ⟨rfl, rfl⟩
  · rw [perform_of_some hrun]
    exact .inr ⟨a, hrun, fun s hs => entries_recorded hs⟩

end Designer

/-- The projects that an action can put in place by an edit, and the supply of identifiers after it.
Undoing and redoing put only canvases of the history in place. -/
def Action.Puts (d : Designer) (q : Project) (ids' : IdSupply) : Action → Prop
  | .execute command =>
      ∃ reply, (command.edit d.store.defaultName d.store.defaultDatabase d.store.project).Gives
        d.store.ids (reply, some q) ids'
  | .importSql sql =>
      ∃ parsed, (Designer.importEdit sql d.store.project).Gives d.store.ids (parsed, some q) ids'
  | .applySql sql =>
      ∃ parsed, (Designer.applyEdit sql d.store.project).Gives d.store.ids (parsed, some q) ids'
  | .undo => False
  | .redo => False
  | .load disk path =>
      ∃ a, (Designer.loadEdit (Files.readDocument disk path) d.store.project).Gives d.store.ids
        (a, some q) ids'

namespace Designer

/-- An edit leaves the canvas or puts a project in place. -/
theorem perform_puts {α : Type} (d : Designer) (edit : Edit α) :
    ((d.perform edit).designer.canvas = d.canvas ∨
      ∃ a, (edit d.store.project).Gives d.store.ids
        (a, some (d.perform edit).designer.store.project)
        (d.perform edit).designer.store.ids) ∧
    ∀ s ∈ (d.perform edit).designer.history.entries,
      s ∈ d.history.entries ∨ s = (d.perform edit).designer.canvas := by
  rcases perform_cases d edit with ⟨hcanvas, hhistory⟩ | ⟨a, hgives, hentries⟩
  · rw [hhistory]
    exact ⟨.inl hcanvas, fun s hs => .inl hs⟩
  · exact ⟨.inr ⟨a, hgives⟩, hentries⟩

/-- The designer after the history was moved, by which an entry may have come back. -/
def travelled (d : Designer) : Option Snapshot × History → Designer
  | (none, history) => { d with history }
  | (some snapshot, history) => (perform { d with history } (Edit.restore snapshot)).designer

theorem after_undo (d : Designer) : d.after .undo = d.travelled d.history.undo := by
  rw [after, undo]
  rcases d.history.undo with ⟨_ | s, h⟩ <;> rfl

theorem after_redo (d : Designer) : d.after .redo = d.travelled d.history.redo := by
  rw [after, redo]
  rcases d.history.redo with ⟨_ | s, h⟩ <;> rfl

/-- Moving within the entries of the history shows the same canvas or one of the entries. -/
theorem travelled_cases (d : Designer) {moved : Option Snapshot × History}
    (hback : ∀ s, moved.1 = some s → s ∈ d.history.entries)
    (hsub : ∀ t ∈ moved.2.entries, t ∈ d.history.entries) :
    ((d.travelled moved).canvas = d.canvas ∨ (d.travelled moved).canvas ∈ d.history.entries) ∧
      ∀ t ∈ (d.travelled moved).history.entries,
        t ∈ d.history.entries ∨ t = (d.travelled moved).canvas := by
  rcases moved with ⟨_ | s, h⟩
  · exact ⟨.inl rfl, fun t ht => .inl (hsub t ht)⟩
  · refine ⟨.inr (hback s rfl), fun t ht => ?_⟩
    rcases perform_cases { d with history := h } (Edit.restore s) with
      ⟨-, hhistory⟩ | ⟨-, -, hentries⟩
    · rw [travelled, hhistory] at ht
      exact .inl (hsub t ht)
    · exact (hentries t ht).imp_left (hsub t)

/-- What an action can do: leave the canvas, bring one of the history back, or put a project in
place.  Whatever it does, the history takes in no other canvas than the new one. -/
theorem after_cases (d : Designer) (action : Action) :
    ((d.after action).canvas = d.canvas ∨ (d.after action).canvas ∈ d.history.entries ∨
        action.Puts d (d.after action).store.project (d.after action).store.ids) ∧
      ∀ s ∈ (d.after action).history.entries,
        s ∈ d.history.entries ∨ s = (d.after action).canvas := by
  cases action with
  | execute command =>
      obtain ⟨hcanvas, hentries⟩ :=
        d.perform_puts (command.edit d.store.defaultName d.store.defaultDatabase)
      exact ⟨hcanvas.imp_right .inr, hentries⟩
  | importSql sql =>
      obtain ⟨hcanvas, hentries⟩ := d.perform_puts (importEdit sql)
      exact ⟨hcanvas.imp_right .inr, hentries⟩
  | applySql sql =>
      obtain ⟨hcanvas, hentries⟩ := d.perform_puts (applyEdit sql)
      exact ⟨hcanvas.imp_right .inr, hentries⟩
  | undo =>
      rw [after_undo]
      obtain ⟨hcanvas, hentries⟩ := d.travelled_cases (fun _ => History.undo_mem)
        fun t ht => by rwa [History.entries_undo] at ht
      exact ⟨hcanvas.imp_right .inl, hentries⟩
  | redo =>
      rw [after_redo]
      obtain ⟨hcanvas, hentries⟩ := d.travelled_cases (fun _ => History.redo_mem)
        fun t ht => by rwa [History.entries_redo] at ht
      exact ⟨hcanvas.imp_right .inl, hentries⟩
  | load disk path =>
      obtain ⟨hcanvas, hentries⟩ := d.perform_puts (loadEdit (Files.readDocument disk path))
      simp only [after, load]
      cases hresult : (d.perform (loadEdit (Files.readDocument disk path))).result with
      | error failure => exact ⟨hcanvas.imp_right .inr, hentries⟩
      | ok a =>
          -- loading clears the history before the new canvas is recorded
          refine ⟨hcanvas.imp_right .inr, fun t ht => ?_⟩
          refine (History.entries_push ht).imp_left fun hcleared => ?_
          simp [History.entries, History.clear] at hcleared

end Designer

/-! ## Reachable states -/

/-- The state of a session after a run of allowed actions, with the canvases shown on the way.  A
snapshot that is restored was taken of one of them, and no identifier is drawn that one of them has
in use. -/
inductive Reached (allowed : Action → Prop) : List Snapshot → Designer → Prop where
  | start {config : Config} {ids : IdSupply} {d : Designer}
      (created : Designer.ofConfig config ids = .ok d) : Reached allowed [d.canvas] d
  | step {seen : List Snapshot} {d : Designer} {action : Action} (reached : Reached allowed seen d)
      (isAllowed : allowed action)
      (restored : ∀ s, action = .execute (.restore s) → s ∈ seen)
      (fresh : ∀ s ∈ seen, d.store.ids.FreshFor (d.after action).store.ids s) :
      Reached allowed ((d.after action).canvas :: seen) (d.after action)

/-- The state after some actions, with the canvases shown on the way put before those `seen`. -/
def Designer.proceed : List Action → List Snapshot → Designer → List Snapshot × Designer
  | [], seen, d => (seen, d)
  | action :: later, seen, d =>
      (d.after action).proceed later ((d.after action).canvas :: seen)

/-- Each of some actions draws only identifiers that no canvas shown before has in use. -/
def Designer.DrawsFresh : List Action → List Snapshot → Designer → Prop
  | [], _, _ => True
  | action :: later, seen, d =>
      (∀ s ∈ seen, d.store.ids.FreshFor (d.after action).store.ids s) ∧
        (d.after action).DrawsFresh later ((d.after action).canvas :: seen)

instance Designer.decidableDrawsFresh :
    ∀ (actions : List Action) (seen : List Snapshot) (d : Designer),
      Decidable (d.DrawsFresh actions seen)
  | [], _, _ => inferInstanceAs (Decidable True)
  | action :: later, seen, d =>
      have := decidableDrawsFresh later ((d.after action).canvas :: seen) (d.after action)
      inferInstanceAs (Decidable (_ ∧ _))

namespace Reached

variable {allowed : Action → Prop} {seen : List Snapshot} {d : Designer}

/-- Allowed actions that restore nothing go on with a run. -/
theorem proceed {actions : List Action} (h : Reached allowed seen d)
    (hallowed : ∀ action ∈ actions, allowed action)
    (hrestores : ∀ action ∈ actions, ∀ s, action ≠ .execute (.restore s))
    (hfresh : d.DrawsFresh actions seen) :
    Reached allowed (d.proceed actions seen).1 (d.proceed actions seen).2 := by
  induction actions generalizing seen d with
  | nil => exact h
  | cons action later ih =>
      rw [List.forall_mem_cons] at hallowed hrestores
      refine ih (.step h hallowed.1 (fun s hs => ?_) hfresh.1) hallowed.2 hrestores.2 hfresh.2
      exact absurd hs (hrestores.1 s)

/-- So there is a run that ends as such actions end, if what holds there is found by following
them. -/
theorem exists_proceed (h : Reached allowed seen d) (actions : List Action)
    (good : List Snapshot → Designer → Prop) (hallowed : ∀ action ∈ actions, allowed action)
    (hrestores : ∀ action ∈ actions, ∀ s, action ≠ .execute (.restore s))
    (hgood : d.DrawsFresh actions seen ∧
      good (d.proceed actions seen).1 (d.proceed actions seen).2) :
    ∃ seen' d', Reached allowed seen' d' ∧ good seen' d' :=
  ⟨_, _, h.proceed hallowed hrestores hgood.1, hgood.2⟩

/-- A run of allowed actions is one of all actions that are allowed for a weaker reason. -/
theorem mono {allowed' : Action → Prop} (h : Reached allowed seen d)
    (hweaker : ∀ action, allowed action → allowed' action) : Reached allowed' seen d := by
  induction h with
  | start created => exact .start created
  | step _ isAllowed restored fresh ih => exact .step ih (hweaker _ isAllowed) restored fresh

/-- What every allowed edit keeps holds of all canvases shown in a run.  It may refer to those that
were shown before. -/
theorem canvases_within (good : List Snapshot → Snapshot → Prop) (h : Reached allowed seen d)
    (empty : ∀ seen, good seen {})
    (grows : ∀ seen shown s, good seen s → good (shown :: seen) s)
    (keeps : ∀ seen d action q ids', Reached allowed seen d → allowed action →
      (∀ s ∈ seen, good seen s) → d.canvas ∈ seen →
      (∀ s, action = .execute (.restore s) → s ∈ seen) → d.store.ids.FreshFor ids' d.canvas →
      action.Puts d q ids' → good seen q.snapshot) :
    (∀ s ∈ seen, good seen s) ∧ d.canvas ∈ seen ∧ ∀ s ∈ d.history.entries, s ∈ seen := by
  induction h with
  | @start config ids d created =>
      obtain ⟨h, hlimit, created⟩ := Except.bind_eq_ok.1 created
      obtain ⟨editor, -, created⟩ := Except.bind_eq_ok.1 created
      cases created
      refine ⟨?_, List.mem_cons_self, fun s hs => ?_⟩
      · intro s hs
        rw [List.mem_singleton.1 hs]
        exact empty _
      · rcases History.entries_push hs with hs | rfl
        · rw [History.ofLimit_entries hlimit] at hs
          exact absurd hs List.not_mem_nil
        · exact List.mem_cons_self
  | @step seen d action reached isAllowed restored fresh ih =>
      obtain ⟨hgood, hcanvas, hentries⟩ := ih
      -- only a project that is put in place can show a canvas that was not seen before
      obtain ⟨hcases, hhistory⟩ := d.after_cases action
      refine ⟨?_, List.mem_cons_self, ?_⟩
      · rw [List.forall_mem_cons]
        refine ⟨grows _ _ _ ?_, fun s hs => grows _ _ _ (hgood s hs)⟩
        rcases hcases with hsame | hback | hputs
        · rw [hsame]
          exact hgood _ hcanvas
        · exact hgood _ (hentries _ hback)
        · exact keeps seen d action _ _ reached isAllowed hgood hcanvas restored (fresh _ hcanvas)
            hputs
      · intro s hs
        rcases hhistory s hs with hold | rfl
        · exact List.mem_cons_of_mem _ (hentries s hold)
        · exact List.mem_cons_self

/-- What every allowed edit keeps, by itself, holds of all canvases shown in a run. -/
theorem canvases (good : Snapshot → Prop) (h : Reached allowed seen d)
    (empty : good {})
    (keeps : ∀ d action q ids', allowed action → good d.canvas →
      (∀ s, action = .execute (.restore s) → good s) → d.store.ids.FreshFor ids' d.canvas →
      action.Puts d q ids' → good q.snapshot) :
    (∀ s ∈ seen, good s) ∧ d.canvas ∈ seen ∧ ∀ s ∈ d.history.entries, s ∈ seen :=
  h.canvases_within (fun _ => good) (fun _ => empty) (fun _ _ _ hs => hs)
    fun _ d action q ids' _ isAllowed hgood hcanvas restored fresh hputs =>
      keeps d action q ids' isAllowed (hgood _ hcanvas) (fun s hs => hgood s (restored s hs)) fresh
        hputs

end Reached

end SchemaDesk
