import SchemaDesk.Proofs.Session.Again
import SchemaDesk.Proofs.Session.Sound

/-!
# Sessions with watchers

Others than the history may listen to a session.  They may subscribe and take a subscription back at
any time, and they only watch: what becomes of the project and the history does not depend on them.
So a session with watchers runs `Alike` to one without, and what is known of the latter holds of it
too (`Attended.exists_reached`).

Every operation is all or nothing (`Designer.Effect.IsAtomic`).  One that fails leaves project and
history as they were and tells nobody; one that succeeds tells every listener of the new project,
once for each subscription, or has changed nothing and tells nobody.
-/

namespace SchemaDesk

open Minting

/-! ## All or nothing -/

/-- What an operation of a designer came to: failing, it changed neither project nor history and
called nobody; succeeding, it called every subscribed listener once, with the project that is then
in place, or it called nobody and changed neither project nor history. -/
structure Designer.Effect.IsAtomic {α : Type} (d : Designer) (e : Designer.Effect α) : Prop where
  failed : ∀ failure, e.result = .error failure → e.announced = [] ∧
    e.designer.store.project = d.store.project ∧ e.designer.history = d.history
  succeeded : ∀ a, e.result = .ok a →
    e.announced = [⟨e.designer.store.project, d.store.listeners⟩] ∨
      e.announced = [] ∧ e.designer.store.project = d.store.project ∧
        e.designer.history = d.history

namespace Designer

/-- What an operation came to, without its answer. -/
def Effect.unanswered {α : Type} (e : Effect α) : Effect Unit :=
  { e with result := e.result.map fun _ => () }

theorem Effect.unanswered_eq_error_iff {α : Type} {e : Effect α} {failure : Failure} :
    e.unanswered.result = .error failure ↔ e.result = .error failure := by
  cases h : e.result <;> simp [unanswered, h, Except.map]

theorem Effect.unanswered_eq_ok_iff {α : Type} {e : Effect α} :
    e.unanswered.result = .ok () ↔ ∃ a, e.result = .ok a := by
  cases h : e.result <;> simp [unanswered, h, Except.map]

/-- What an action comes to. -/
def act (d : Designer) : Action → Effect Unit
  | .execute command => (d.execute command).unanswered
  | .importSql sql => (d.importSql sql).unanswered
  | .applySql sql => (d.applySql sql).unanswered
  | .undo => d.undo.unanswered
  | .redo => d.redo.unanswered
  | .load disk path => (d.load disk path).unanswered

/-- Moves to where the history was moved, by which an entry may come back; the answer tells whether
one did. -/
def travel (d : Designer) : Option Snapshot × History → Effect Bool
  | (none, history) => ⟨.ok false, { d with history }, []⟩
  | (some snapshot, history) =>
      let effect := perform { d with history } (Edit.restore snapshot)
      { effect with result := effect.result.map fun _ => true }

theorem act_designer (d : Designer) (action : Action) :
    (d.act action).designer = d.after action := by
  cases action <;> rfl

theorem perform_eq_ok_iff {α : Type} {d : Designer} {edit : Edit α} {a : α} :
    (d.perform edit).result = .ok a ↔
      ∃ next ids', (edit d.store.project).Gives d.store.ids (a, next) ids' := by
  rcases hrun : (edit d.store.project).runFrom d.store.ids with ⟨failure | ⟨b, _ | q⟩, ids⟩
  · simp [perform_of_error hrun, Gives, hrun]
  · simp [perform_of_none hrun, Gives, hrun]
  · simp [perform_of_some hrun, Gives, hrun]

namespace Effect.IsAtomic

variable {d : Designer} {α : Type}

theorem unanswered {e : Effect α} (h : e.IsAtomic d) : e.unanswered.IsAtomic d := by
  refine ⟨fun failure hfailure => ?_, fun _ hanswer => ?_⟩
  · exact h.failed failure (unanswered_eq_error_iff.1 hfailure)
  · obtain ⟨a, hresult⟩ := unanswered_eq_ok_iff.1 hanswer
    exact h.succeeded a hresult

/-- An edit is performed in one step or not at all. -/
theorem perform (d : Designer) (edit : Edit α) : (d.perform edit).IsAtomic d := by
  rcases hrun : (edit d.store.project).runFrom d.store.ids with ⟨failure | ⟨a, _ | q⟩, ids⟩
  · rw [perform_of_error hrun]
    exact ⟨fun _ _ => ⟨rfl, rfl, rfl⟩, nofun⟩
  · rw [perform_of_none hrun]
    exact ⟨nofun, fun _ _ => .inr ⟨rfl, rfl, rfl⟩⟩
  · rw [perform_of_some hrun]
    exact ⟨nofun, fun _ _ => .inl rfl⟩

/-- Moving within the history never fails, and tells the listeners if it brings an entry back. -/
theorem travel {moved : Option Snapshot × History} (hstays : moved.1 = none → moved.2 = d.history) :
    (d.travel moved).IsAtomic d := by
  rcases moved with ⟨_ | s, h⟩
  · exact ⟨nofun, fun _ _ => .inr ⟨rfl, rfl, hstays rfl⟩⟩
  · exact ⟨nofun, fun _ _ => .inl rfl⟩

/-- Loading announces the project that it puts in place, before the history starts anew. -/
theorem load (d : Designer) (disk : Disk) (path : Text) : (d.load disk path).IsAtomic d := by
  have hperformed := perform d (loadEdit (Files.readDocument disk path))
  rw [Designer.load]
  cases hresult : (d.perform (loadEdit (Files.readDocument disk path))).result with
  | error failure => simpa only [hresult] using hperformed
  | ok a =>
      obtain ⟨next, ids', hgives⟩ := perform_eq_ok_iff.1 hresult
      obtain ⟨q, rfl, -⟩ := loadEdit_gives_some hgives
      rw [perform_of_some hgives]
      -- starting the history anew changes neither the project nor who was called
      refine ⟨fun _ hfailure => ?_, fun _ _ => .inl rfl⟩
      cases hfailure

end Effect.IsAtomic

/-- Whatever a designer is asked for, it does it all or not at all. -/
theorem act_isAtomic (d : Designer) (action : Action) : (d.act action).IsAtomic d := by
  cases action with
  | execute command => exact (Effect.IsAtomic.perform d _).unanswered
  | importSql sql => exact (Effect.IsAtomic.perform d _).unanswered
  | applySql sql => exact (Effect.IsAtomic.perform d _).unanswered
  | undo => exact (Effect.IsAtomic.travel History.undo_of_none).unanswered
  | redo => exact (Effect.IsAtomic.travel History.redo_of_none).unanswered
  | load disk path => exact (Effect.IsAtomic.load d disk path).unanswered

/-! ## What watchers have no part in -/

/-- Taking back a subscription of a watcher leaves those of the history. -/
theorem count_erase_watcher (subscribed : List Listener) (name : Value) (once : Bool) :
    (subscribed.erase (.watcher name once)).count .recorder = subscribed.count .recorder := by
  have hne : Listener.recorder ≠ .watcher name once := nofun
  exact List.count_erase_of_ne hne

/-- Calling listeners takes no subscription of the history back. -/
theorem count_afterCalls (called subscribed : List Listener) :
    (Store.afterCalls called subscribed).count .recorder = subscribed.count .recorder := by
  rw [Store.afterCalls]
  -- the history is never among those that want to be called once only
  induction called generalizing subscribed with
  | nil => rfl
  | cons l called ih =>
      rw [List.foldl_cons, ih]
      cases l with
      | recorder => rfl
      | watcher name once =>
          cases once with
          | false => rfl
          | true => exact count_erase_watcher _ _ _

/-- Two designers that differ in their watchers and their editors only. -/
structure Alike (d e : Designer) : Prop where
  project : d.store.project = e.store.project
  defaultName : d.store.defaultName = e.store.defaultName
  defaultDatabase : d.store.defaultDatabase = e.store.defaultDatabase
  ids : d.store.ids = e.store.ids
  recorders : d.store.listeners.count .recorder = e.store.listeners.count .recorder
  history : d.history = e.history

namespace Alike

variable {d e : Designer} {α : Type}

/-- Listeners with as many subscriptions of the history leave the same record. -/
theorem recorded_eq {ls ls' : List Listener} (h : ls.count .recorder = ls'.count .recorder)
    (history : History) (q : Project) :
    recorded history ⟨q, ls⟩ = recorded history ⟨q, ls'⟩ := by
  simp only [recorded, List.filter_eq, h]

/-- An edit comes to the same in both of them. -/
theorem perform (h : d.Alike e) (edit : Edit α) :
    (d.perform edit).designer.Alike (e.perform edit).designer ∧
      (d.perform edit).result = (e.perform edit).result := by
  have hsame : (edit d.store.project).runFrom d.store.ids =
      (edit e.store.project).runFrom e.store.ids := by
    rw [h.project, h.ids]
  rcases hrun : (edit e.store.project).runFrom e.store.ids with ⟨failure | ⟨a, _ | q⟩, ids⟩
  · rw [perform_of_error hrun, perform_of_error (hsame.trans hrun)]
    exact ⟨⟨h.project, h.defaultName, h.defaultDatabase, rfl, h.recorders, h.history⟩, rfl⟩
  · rw [perform_of_none hrun, perform_of_none (hsame.trans hrun)]
    exact ⟨⟨h.project, h.defaultName, h.defaultDatabase, rfl, h.recorders, h.history⟩, rfl⟩
  · rw [perform_of_some hrun, perform_of_some (hsame.trans hrun), h.history]
    refine ⟨⟨rfl, h.defaultName, h.defaultDatabase, rfl, ?_, ?_⟩, rfl⟩
    · rw [count_afterCalls, count_afterCalls]
      exact h.recorders
    · exact recorded_eq h.recorders e.history q

/-- So does moving within the history. -/
theorem travelled (h : d.Alike e) (moved : Option Snapshot × History) :
    (d.travelled moved).Alike (e.travelled moved) := by
  have hmoved : ({ d with history := moved.2 } : Designer).Alike { e with history := moved.2 } :=
    ⟨h.project, h.defaultName, h.defaultDatabase, h.ids, h.recorders, rfl⟩
  rcases moved with ⟨_ | s, history⟩
  · exact hmoved
  · exact (hmoved.perform _).1

/-- Every action comes to the same in both of them. -/
theorem after (h : d.Alike e) (action : Action) : (d.after action).Alike (e.after action) := by
  cases action with
  | execute command =>
      simp only [Designer.after, execute, h.defaultName, h.defaultDatabase]
      exact (h.perform _).1
  | importSql sql => exact (h.perform _).1
  | applySql sql => exact (h.perform _).1
  | undo =>
      rw [after_undo, after_undo, h.history]
      exact h.travelled _
  | redo =>
      rw [after_redo, after_redo, h.history]
      exact h.travelled _
  | load disk path =>
      obtain ⟨hperformed, hresult⟩ := h.perform (loadEdit (Files.readDocument disk path))
      simp only [Designer.after, load, hresult]
      cases (e.perform (loadEdit (Files.readDocument disk path))).result with
      | error failure => exact hperformed
      | ok a =>
          simp only [hperformed.history, hperformed.project]
          exact ⟨hperformed.project, hperformed.defaultName, hperformed.defaultDatabase,
            hperformed.ids, hperformed.recorders, rfl⟩

theorem canvas (h : d.Alike e) : d.canvas = e.canvas :=
  congrArg Project.snapshot h.project

end Alike

end Designer

/-! ## Sessions that are watched -/

/-- The state of a session after a run of allowed actions, with the canvases shown on the way, as
`Reached` has it.  In between watchers may subscribe and leave, and the editor may be used in any
way; the texts that it passes on are actions of their own. -/
inductive Attended (allowed : Action → Prop) : List Snapshot → Designer → Prop where
  | start {config : Config} {ids : IdSupply} {d : Designer}
      (created : Designer.ofConfig config ids = .ok d) : Attended allowed [d.canvas] d
  | step {seen : List Snapshot} {d : Designer} {action : Action}
      (attended : Attended allowed seen d) (isAllowed : allowed action)
      (restored : ∀ s, action = .execute (.restore s) → s ∈ seen)
      (fresh : ∀ s ∈ seen, d.store.ids.FreshFor (d.after action).store.ids s) :
      Attended allowed ((d.after action).canvas :: seen) (d.after action)
  | subscribe {seen : List Snapshot} {d : Designer} (attended : Attended allowed seen d)
      (name : Value) (once : Bool) :
      Attended allowed seen { d with store := d.store.subscribe (.watcher name once) }
  | unsubscribe {seen : List Snapshot} {d : Designer} (attended : Attended allowed seen d)
      (name : Value) (once : Bool) :
      Attended allowed seen { d with store := d.store.unsubscribe (.watcher name once) }
  | edit {seen : List Snapshot} {d : Designer} (attended : Attended allowed seen d)
      (editor : Editor) : Attended allowed seen { d with editor }

/-- A session without watchers is one in which nobody subscribes. -/
theorem Reached.attended {allowed : Action → Prop} {seen : List Snapshot} {d : Designer}
    (h : Reached allowed seen d) : Attended allowed seen d := by
  induction h with
  | start created => exact .start created
  | step _ isAllowed restored fresh ih => exact .step ih isAllowed restored fresh

/-- A session with watchers shows the canvases of one without. -/
theorem Attended.exists_reached {allowed : Action → Prop} {seen : List Snapshot} {d : Designer}
    (h : Attended allowed seen d) : ∃ e, Reached allowed seen e ∧ d.Alike e := by
  induction h with
  | start created => exact ⟨_, .start created, rfl, rfl, rfl, rfl, rfl, rfl⟩
  | @step seen d action attended isAllowed restored fresh ih =>
      obtain ⟨e, hreached, halike⟩ := ih
      have hafter := halike.after action
      -- both draw the same identifiers, so they are as fresh without watchers
      rw [halike.ids, hafter.ids] at fresh
      rw [hafter.canvas]
      exact ⟨_, hreached.step isAllowed restored fresh, hafter⟩
  | @subscribe seen d attended name once ih =>
      obtain ⟨e, hreached, h⟩ := ih
      refine ⟨e, hreached, h.project, h.defaultName, h.defaultDatabase, h.ids, ?_, h.history⟩
      simpa [Store.subscribe] using h.recorders
  | @unsubscribe seen d attended name once ih =>
      obtain ⟨e, hreached, h⟩ := ih
      refine ⟨e, hreached, h.project, h.defaultName, h.defaultDatabase, h.ids, ?_, h.history⟩
      exact (Designer.count_erase_watcher _ _ _).trans h.recorders
  | @edit seen d attended editor ih =>
      obtain ⟨e, hreached, h⟩ := ih
      exact ⟨e, hreached, h.project, h.defaultName, h.defaultDatabase, h.ids, h.recorders,
        h.history⟩

/-! ## Importing a text -/

namespace Designer

variable {d : Designer} {sql : Text} {parsed : Parsed}

/-- Beside a sound project a text can be imported exactly if it can be read, declares a table and
leaves none of them empty: what it declares under new identifiers passes every check. -/
theorem importSql_eq_ok_iff (hsound : d.store.project.IsSound)
    (hfresh : d.store.ids.FreshFor ((Sql.parse sql).runFrom d.store.ids).2 d.canvas) :
    (d.importSql sql).result = .ok parsed ↔
      ((Sql.parse sql).runFrom d.store.ids).1 = .ok parsed ∧
        parsed.foundStatements = true ∧ parsed.emptyTables = [] := by
  rw [importSql, perform_eq_ok_iff]
  constructor
  · rintro ⟨next, ids', hgives⟩
    obtain ⟨hparse, hdeclared, -⟩ := importEdit_gives_iff.1 hgives
    exact ⟨congrArg Prod.fst hparse, hdeclared⟩
  · rintro ⟨hresult, hdeclared⟩
    have hparse : (Sql.parse sql).Gives d.store.ids parsed _ := Prod.ext hresult rfl
    -- the batch uses identifiers of its own, so no check of the whole can fail
    exact ⟨_, _, importEdit_gives_iff.2
      ⟨hparse, hdeclared, (Sql.parse_declares hparse).beside hsound hfresh, rfl⟩⟩

/-- What was imported stands after what was there. -/
theorem importSql_project (h : (d.importSql sql).result = .ok parsed) :
    (d.importSql sql).designer.store.project = { d.store.project with
      tables := d.store.project.tables ++ parsed.tables
      relations := d.store.project.relations ++ parsed.relations } := by
  obtain ⟨next, ids', hgives⟩ := perform_eq_ok_iff.1 h
  obtain ⟨-, -, -, rfl⟩ := importEdit_gives_iff.1 hgives
  exact (perform_gives hgives).1

end Designer

/-- Every action of every designer is all or nothing.  In a session, importing a text fails exactly
if the text cannot be read, declares no table or declares one without a column, as long as the
identifiers that reading draws are not in use.  Else its tables and relations follow those that were
there. -/
theorem designer_all_or_nothing :
    (∀ (d : Designer) action, (d.act action).designer = d.after action ∧ (d.act action).IsAtomic d) ∧
    ∀ seen d, Attended (fun _ => True) seen d → ∀ sql,
      d.store.ids.FreshFor ((Sql.parse sql).runFrom d.store.ids).2 d.canvas →
        ((∃ failure, (d.importSql sql).result = .error failure) ↔
          (∃ failure, ((Sql.parse sql).runFrom d.store.ids).1 = .error failure) ∨
          ∃ parsed, ((Sql.parse sql).runFrom d.store.ids).1 = .ok parsed ∧
            (parsed.foundStatements = false ∨ parsed.emptyTables ≠ [])) ∧
        ∀ parsed, (d.importSql sql).result = .ok parsed →
          ((Sql.parse sql).runFrom d.store.ids).1 = .ok parsed ∧
          (d.importSql sql).designer.store.project = { d.store.project with
            tables := d.store.project.tables ++ parsed.tables
            relations := d.store.project.relations ++ parsed.relations } := by
  refine ⟨fun d action => ⟨d.act_designer action, d.act_isAtomic action⟩, ?_⟩
  intro seen d h sql hfresh
  -- the project is sound, because a session without watchers shows it too
  obtain ⟨e, hreached, halike⟩ := h.exists_reached
  obtain ⟨hsound, hcanvas, -⟩ := hreached.canvases_sound
  have hsound : d.store.project.IsSound := by
    rw [halike.project]
    exact hsound _ hcanvas
  have himport : ∀ parsed, (d.importSql sql).result = .ok parsed ↔ _ :=
    fun _ => Designer.importSql_eq_ok_iff hsound hfresh
  refine ⟨?_, fun parsed hok => ⟨((himport parsed).1 hok).1, Designer.importSql_project hok⟩⟩
  rw [Except.exists_eq_error_iff]
  simp only [ne_eq, himport]
  cases ((Sql.parse sql).runFrom d.store.ids).1 with
  | error failure => simp
  | ok parsed =>
      have hdeclared : ¬ (parsed.foundStatements = true ∧ parsed.emptyTables = []) ↔
          parsed.foundStatements = false ∨ parsed.emptyTables ≠ [] := by
        rw [not_and_or, Bool.not_eq_true]
      simpa using hdeclared

/-- A text with a table that refers to itself. -/
def linkedPages : Text :=
  "CREATE TABLE pages (no INT PRIMARY KEY, prior INT REFERENCES pages);"

/-- A text with a table that has no columns. -/
def emptySites : Text :=
  "CREATE TABLE pages (no INT PRIMARY KEY); CREATE TABLE sites ();"

/-- A session with two watchers, one of which came back after its only call: they are told of the
first text, and not of the second one, which fails. -/
theorem designer_all_or_nothing_watched : ∃ seen d, Attended (fun _ => True) seen d ∧
    d.store.listeners = [.recorder, .watcher "tree" false, .watcher "grid" true] ∧
    (∃ parsed, (d.importSql linkedPages).result = .ok parsed ∧
      (d.importSql linkedPages).designer.store.project.tables =
        d.store.project.tables ++ parsed.tables) ∧
    (d.act (.importSql linkedPages)).announced =
      [⟨(d.act (.importSql linkedPages)).designer.store.project, d.store.listeners⟩] ∧
    ∃ failure, (d.act (.importSql emptySites)).result = .error failure ∧
      (d.act (.importSql emptySites)).announced = [] := by
  have start := @Attended.start (fun _ => True) {} {} _ rfl
  have tree := (start.subscribe "grid" true).subscribe "tree" false
  have orders := @Attended.step _ _ _ (.execute (.addTable "orders" [])) tree trivial (by simp)
    (by decide +kernel)
  obtain ⟨seen, d, watched, hlisteners, hfreshLinked, hfreshEmpty, hanswer, hcalls, hempty⟩ :
      ∃ seen d, Attended (fun _ => True) seen d ∧
        d.store.listeners = [.recorder, .watcher "tree" false, .watcher "grid" true] ∧
        d.store.ids.FreshFor ((Sql.parse linkedPages).runFrom d.store.ids).2 d.canvas ∧
        d.store.ids.FreshFor ((Sql.parse emptySites).runFrom d.store.ids).2 d.canvas ∧
        (d.act (.importSql linkedPages)).result = .ok () ∧
        (d.act (.importSql linkedPages)).announced ≠ [] ∧
        ((Sql.parse emptySites).runFrom d.store.ids).1.toOption.any
          (fun parsed => !parsed.emptyTables.isEmpty) = true := by
    refine ⟨_, _, orders.subscribe "grid" true, ?_⟩
    rw [linkedPages, emptySites]
    repeat rw [Text.ofString_ofList]
    decide +kernel
  obtain ⟨hatomic, himport⟩ := designer_all_or_nothing
  obtain ⟨-, hatomicLinked⟩ := hatomic d (.importSql linkedPages)
  obtain ⟨-, hatomicEmpty⟩ := hatomic d (.importSql emptySites)
  obtain ⟨-, hlinkedGives⟩ := himport seen d watched linkedPages hfreshLinked
  obtain ⟨hemptyFails, -⟩ := himport seen d watched emptySites hfreshEmpty
  obtain ⟨linked, hlinked⟩ := Designer.Effect.unanswered_eq_ok_iff.1 hanswer
  obtain ⟨empty, hparse, hcolumns⟩ := gives_of_any hempty rfl
  have hempty : empty.emptyTables ≠ [] := by simpa using hcolumns
  obtain ⟨failure, hfails⟩ := hemptyFails.2 (.inr ⟨empty, congrArg Prod.fst hparse, .inr hempty⟩)
  have hfailure : (d.act (.importSql emptySites)).result = .error failure :=
    Designer.Effect.unanswered_eq_error_iff.2 hfails
  refine ⟨seen, d, watched, hlisteners, ⟨linked, hlinked, ?_⟩, ?_, failure, hfailure,
    (hatomicEmpty.failed failure hfailure).1⟩
  · exact congrArg Project.tables (hlinkedGives linked hlinked).2
  · exact (hatomicLinked.succeeded () hanswer).resolve_right fun h => hcalls h.1

end SchemaDesk
