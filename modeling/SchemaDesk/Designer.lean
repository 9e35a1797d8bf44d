import SchemaDesk.Editor
import SchemaDesk.History
import SchemaDesk.Storage.Files
import SchemaDesk.Store

/-!
# The designer

A designer joins a store, its undo history and a live SQL editor.  The history listens to the store
and records the canvas after every change.  Undoing puts an earlier canvas into the store, which
announces it like any change; the history does not record it again, because it already is the
current entry.
-/

namespace SchemaDesk

/-- The settings of a session. -/
structure Config where
  logLevel : Value := "INFO"
  projectName : Value := "New Database"
  database : Value := Engine.mysql.name
  maxHistory : Value := .int 50
  editorDelay : Value := .int Editor.defaultDelay
  deriving DecidableEq, Repr

/-- The fields of the settings. -/
def Config.fields : List (Field Config) :=
  [⟨"log_level", logLevel, fun v c => { c with logLevel := v }⟩,
    ⟨"project_name", projectName, fun v c => { c with projectName := v }⟩,
    ⟨"database", database, fun v c => { c with database := v }⟩,
    ⟨"max_history", maxHistory, fun v c => { c with maxHistory := v }⟩,
    ⟨"sql_editor_debounce_ms", editorDelay, fun v c => { c with editorDelay := v }⟩]

/-- A store with its history and its editor. -/
structure Designer where
  store : Store
  history : History
  editor : Editor
  deriving DecidableEq

/-- What became of an operation of a designer. -/
structure Designer.Effect (α : Type) where
  result : Except Failure α
  designer : Designer
  announced : List Announcement := []

namespace Designer

/-- A new designer.  The empty canvas is the first entry of its history. -/
def ofConfig (config : Config) (ids : IdSupply) : Except Failure Designer := do
  let store := Store.empty config.projectName config.database ids
  let history ← History.ofLimit config.maxHistory
  let (_, history) := history.push store.project.snapshot
  let editor ← Editor.ofDelay config.editorDelay true
  .ok { store := store.subscribe .recorder, history, editor }

/-- The history after it was told of a new project, once for each of its subscriptions. -/
def recorded (h : History) (a : Announcement) : History :=
  (a.called.filter (· = .recorder)).foldl (fun h _ => (h.push a.project.snapshot).2) h

/-- Performs an edit. -/
def perform {α : Type} (d : Designer) (edit : Edit α) : Effect α :=
  let outcome := d.store.perform edit
  let history := outcome.announced.foldl recorded d.history
  ⟨outcome.result, { d with store := outcome.store, history }, outcome.announced⟩

/-- Carries out a command. -/
def execute (d : Designer) (command : Command) : Effect Reply :=
  d.perform (command.edit d.store.defaultName d.store.defaultDatabase)

/-- Goes back one entry of the history; the answer tells whether there was one. -/
def undo (d : Designer) : Effect Bool :=
  match d.history.undo with
  | (none, history) => ⟨.ok false, { d with history }, []⟩
  | (some snapshot, history) =>
      let effect := perform { d with history } (Edit.restore snapshot)
      { effect with result := effect.result.map fun _ => true }

/-- Goes forward one entry of the history; the answer tells whether there was one. -/
def redo (d : Designer) : Effect Bool :=
  match d.history.redo with
  | (none, history) => ⟨.ok false, { d with history }, []⟩
  | (some snapshot, history) =>
      let effect := perform { d with history } (Edit.restore snapshot)
      { effect with result := effect.result.map fun _ => true }

/-- Forgets the history. -/
def clearHistory (d : Designer) : Designer :=
  { d with history := d.history.clear }

/-- Appends all tables of a SQL text; each of them has to have a column. -/
def importEdit (sql : Text) : Edit Parsed := fun p => do
  let parsed ← Sql.parse sql
  if !parsed.foundStatements then report .noTables
  else if !parsed.emptyTables.isEmpty then report (.emptyTables parsed.emptyTables)
  else
    let (_, next) ← Edit.append parsed.tables parsed.relations p
    pure (parsed, next)

/-- Appends all tables of a SQL text to the project. -/
def importSql (d : Designer) (sql : Text) : Effect Parsed :=
  d.perform (importEdit sql)

/-- Merges the tables of a SQL text; a text without tables changes nothing. -/
def applyEdit (sql : Text) : Edit Parsed := fun p => do
  let parsed ← Sql.parse sql
  if parsed.tables.isEmpty then pure (parsed, none)
  else
    let (_, next) ← Edit.merge parsed.tables parsed.relations p
    pure (parsed, next)

/-- Merges the tables of a SQL text into the project. -/
def applySql (d : Designer) (sql : Text) : Effect Parsed :=
  d.perform (applyEdit sql)

/-! ## The editor -/

/-- Merges texts that the editor passed on, one after the other, up to the first that fails. -/
def applyAll (d : Designer) : List Text → Effect Unit
  | [] => ⟨.ok (), d, []⟩
  | sql :: rest =>
      let effect := d.applySql sql
      match effect.result with
      | .error e => ⟨.error e, effect.designer, effect.announced⟩
      | .ok _ =>
          let more := applyAll effect.designer rest
          { more with announced := effect.announced ++ more.announced }

/-- Types a text into the editor. -/
def type (d : Designer) (text : Value) : Effect Unit :=
  ⟨.ok (), { d with editor := d.editor.type text }, []⟩

/-- Cancels the pending timer of the editor. -/
def cancel (d : Designer) : Effect Unit :=
  ⟨.ok (), { d with editor := d.editor.cancel }, []⟩

/-- Merges what the editor passed on, after which it is left in a given state. -/
def applyEmitted (d : Designer) (emission : Except Failure (List Text) × Editor) : Effect Unit :=
  let d := { d with editor := emission.2 }
  match emission.1 with
  | .error e => ⟨.error e, d, []⟩
  | .ok emitted => applyAll d emitted

/-- Lets the editor pass its text on at once. -/
def flush (d : Designer) : Effect Unit :=
  d.applyEmitted d.editor.flush

/-- Lets the timers of the editor fire. -/
def fire (d : Designer) : Effect Unit :=
  d.applyEmitted d.editor.fire

/-! ## Files -/

/-- Takes the project that a document stores. -/
def loadEdit (document : Except Failure Value) : Edit Unit := fun p => do
  let stored ← ofExcept document
  let q ← Project.ofDocument stored
  Edit.load q p

/-- Loads a project from a file; the history starts anew with it. -/
def load (d : Designer) (disk : Disk) (path : Text) : Effect Unit :=
  let effect := d.perform (loadEdit (Files.readDocument disk path))
  match effect.result with
  | .error _ => effect
  | .ok _ =>
      let d := effect.designer
      let (_, history) := d.history.clear.push d.store.project.snapshot
      { effect with designer := { d with history } }

/-- Saves the project to a file. -/
def save (d : Designer) (disk : Disk) (path stamp : Text) : Except Failure Unit × Disk :=
  Files.save disk d.store.project path stamp

/-- The SQL text of the project. -/
def exportSql (d : Designer) (stamp : Text) : Except Failure Text :=
  Sql.ddl d.store.project stamp

/-- Exports the SQL text of the project to a file in a folder. -/
def exportSqlFile (d : Designer) (disk : Disk) (folder stamp : Text) :
    Except Failure Path × Disk :=
  Files.exportSql disk d.store.project folder stamp

end Designer

end SchemaDesk
