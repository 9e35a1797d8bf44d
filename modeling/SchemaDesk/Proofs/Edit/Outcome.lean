import SchemaDesk.Edit.Command
import SchemaDesk.Proofs.Edit.Checks
import SchemaDesk.Proofs.Schema.Replaced

/-!
# What a successful edit comes to

For each edit of the schema: what its arguments must have been like if it succeeded, and the project
that it leaves.  The other edits leave the tables and relations alone, and that is all that is said
of them.

These are the only proofs that open the definitions of the edits; everything that edits keep is
derived from the statements here.
-/

namespace SchemaDesk

/-- The tables and relations of a project. -/
def Project.schema (p : Project) : List Table × List Relation :=
  (p.tables, p.relations)

namespace Edit

open Minting

variable {p q : Project} {ids ids' : IdSupply} {patch : Patch} {next : Option Project}

@[simp] theorem replying_gives {α : Type} {reply : α → Reply} {edit : Edit α} {r : Reply} :
    (replying reply edit p).Gives ids (r, next) ids' ↔
      ∃ a, (edit p).Gives ids (a, next) ids' ∧ reply a = r := by
  simp only [replying, gives_bind, gives_pure, Prod.exists, Prod.mk.injEq]
  constructor
  · rintro ⟨a, _, mid, hgives, ⟨hreply, rfl⟩, rfl⟩
    exact ⟨a, hgives, hreply⟩
  · rintro ⟨a, hgives, hreply⟩
    exact ⟨a, next, ids', hgives, ⟨hreply, rfl⟩, rfl⟩

@[simp] theorem requireTable_eq_ok {id : Value} {place : Place} {t : Table} :
    requireTable p id place = .ok t ↔ p.table? id = some t := by
  rw [requireTable]
  cases p.table? id <;> simp

@[simp] theorem requireColumn_eq_ok {t : Table} {id : Value} {place : Place} {c : Column} :
    requireColumn t id place = .ok c ↔ t.column? id = some c := by
  rw [requireColumn]
  cases t.column? id <;> simp

/-! ## Tables -/

/-- The table that is added: one column, and the identifiers drawn for both. -/
def newTable (ids : IdSupply) (clean : Text) (patch : Patch) : Table :=
  Field.patched Table.fields patch
    { id := identifier (ids.drawn + 2), name := clean,
      columns := [seedColumn (identifier (ids.drawn + 1))] }

theorem addTable_gives {v : Value} {t : Table}
    (h : (addTable v patch p).Gives ids (t, next) ids') :
    ∃ clean, name v .addTableName = .ok clean ∧
      (∀ entry ∈ patch, entry.1 ∈ fieldsWithout Table.fields ["id", "name"]) ∧
      t = newTable ids clean patch ∧ next = some { p with tables := p.tables ++ [t] } ∧
      ids' = ⟨ids.drawn + 2⟩ := by
  simp only [addTable, gives_bind, gives_ofExcept, gives_mint, gives_pure, Prod.mk.injEq] at h
  obtain ⟨⟨⟩, _, ⟨-, rfl⟩, clean, _, ⟨hclean, rfl⟩, ⟨⟩, _, ⟨hfields, rfl⟩, _, _, ⟨rfl, rfl⟩, _, _,
    ⟨rfl, rfl⟩, ⟨rfl, rfl⟩, rfl⟩ := h
  exact ⟨clean, hclean, checkFields_eq_ok.1 hfields, rfl, rfl, rfl⟩

theorem updateTable_gives {id : Value} {t : Table}
    (h : (updateTable id patch p).Gives ids (t, next) ids') :
    ∃ u patch', p.table? id = some u ∧
      (∀ entry ∈ patch, entry.1 ∈ fieldsWithout Table.fields ["id"]) ∧
      withName patch .editTableName = .ok patch' ∧ t = Field.patched Table.fields patch' u ∧
      next = some { p with tables := replaceTable p.tables t } ∧ ids' = ids := by
  simp only [updateTable, gives_bind, gives_ofExcept, gives_pure, Prod.mk.injEq,
    requireTable_eq_ok] at h
  obtain ⟨u, _, ⟨hu, rfl⟩, ⟨⟩, _, ⟨hfields, rfl⟩, patch', _, ⟨hname, rfl⟩, ⟨rfl, rfl⟩, rfl⟩ := h
  exact ⟨u, patch', hu, checkFields_eq_ok.1 hfields, hname, rfl, rfl, rfl⟩

theorem deleteTable_gives {id : Value} {a : Unit}
    (h : (deleteTable id p).Gives ids (a, next) ids') :
    ∃ t, p.table? id = some t ∧
      next = some { p with
        tables := Flags.release (p.relations.filter (·.touches id))
          (p.relations.filter (!·.touches id)) (p.tables.filter (!·.id.equals id))
        relations := p.relations.filter (!·.touches id) } ∧ ids' = ids := by
  simp only [deleteTable, gives_bind, gives_ofExcept, gives_pure, Prod.mk.injEq,
    requireTable_eq_ok] at h
  obtain ⟨t, _, ⟨ht, rfl⟩, ⟨⟩, _, ⟨-, rfl⟩, ⟨-, rfl⟩, rfl⟩ := h
  exact ⟨t, ht, rfl, rfl⟩

/-! ## Columns -/

theorem addColumn_gives {tableId v type : Value} {c : Column}
    (h : (addColumn tableId v type patch p).Gives ids (c, next) ids') :
    ∃ t patch', p.table? tableId = some t ∧
      checkColumnPatch (("name", v) :: ("type", type) :: patch) .addColumn = .ok patch' ∧
      c = Field.patched Column.fields patch'
        { id := identifier (ids.drawn + 1), name := .null } ∧
      next = some { p with
        tables := replaceTable p.tables { t with columns := t.columns ++ [c] } } ∧
      ids' = ⟨ids.drawn + 1⟩ ∧
      ∀ entry ∈ patch, entry.1 ∉ ([("table_id" : Text), "name", "type"] : List Text) := by
  simp only [addColumn, gives_bind, gives_ofExcept, gives_mint, gives_pure, Prod.mk.injEq,
    requireTable_eq_ok] at h
  obtain ⟨⟨⟩, _, ⟨hgiven, rfl⟩, t, _, ⟨ht, rfl⟩, patch', _, ⟨hpatch, rfl⟩, _, _, ⟨rfl, rfl⟩,
    ⟨rfl, rfl⟩, rfl⟩ := h
  exact ⟨t, patch', ht, hpatch, rfl, rfl, rfl, refuseArguments_eq_ok.1 hgiven⟩

theorem updateColumn_gives {tableId columnId : Value} {c : Column}
    (h : (updateColumn tableId columnId patch p).Gives ids (c, next) ids') :
    ∃ t d patch', p.table? tableId = some t ∧ t.column? columnId = some d ∧
      checkColumnPatch patch .editColumn = .ok patch' ∧
      c = Field.patched Column.fields patch' d ∧
      next = some { p with
        tables := replaceTable p.tables
          { t with columns := changeColumn t.columns columnId fun _ => c } } ∧
      ids' = ids := by
  simp only [updateColumn, gives_bind, gives_ofExcept, gives_pure, Prod.mk.injEq,
    requireTable_eq_ok, requireColumn_eq_ok] at h
  obtain ⟨t, _, ⟨ht, rfl⟩, d, _, ⟨hd, rfl⟩, patch', _, ⟨hpatch, rfl⟩, ⟨rfl, rfl⟩, rfl⟩ := h
  exact ⟨t, d, patch', ht, hd, hpatch, rfl, rfl, rfl⟩

/-- Whether a relation starts or ends at a column. -/
def atColumn (tableId columnId : Value) (r : Relation) : Bool :=
  r.startsAt tableId columnId || r.endsAt tableId columnId

theorem deleteColumn_gives {tableId columnId : Value} {a : Unit}
    (h : (deleteColumn tableId columnId p).Gives ids (a, next) ids') :
    ∃ t c, p.table? tableId = some t ∧ t.column? columnId = some c ∧ t.columns.length ≠ 1 ∧
      next = some { p with
        tables := Flags.release (p.relations.filter (atColumn tableId columnId))
          (p.relations.filter (!atColumn tableId columnId ·))
          (replaceTable p.tables
            { t with columns := t.columns.filter (!·.id.equals columnId) })
        relations := p.relations.filter (!atColumn tableId columnId ·) } ∧
      ids' = ids := by
  simp only [deleteColumn, gives_bind, gives_ofExcept, gives_pure, Prod.mk.injEq,
    requireTable_eq_ok, requireColumn_eq_ok] at h
  obtain ⟨t, _, ⟨ht, rfl⟩, c, _, ⟨hc, rfl⟩, ⟨⟩, _, ⟨honly, rfl⟩, ⟨⟩, _, ⟨-, rfl⟩, ⟨-, rfl⟩,
    rfl⟩ := h
  exact ⟨t, c, ht, hc, of_decide_eq_true (require_eq_ok.1 honly), rfl, rfl⟩

/-! ## Relations -/

/-- Whether the kind and the actions of a new relation are among those that there are. -/
def RelationOptions.AreChosen (o : RelationOptions) : Prop :=
  Choice.relationKind.admits o.type = true ∧ Choice.action.admits o.onDelete = true ∧
    Choice.action.admits o.onUpdate = true

/-- The fields of a new relation that a patch may name. -/
def relationPatchFields : List Text :=
  fieldsWithout Relation.fields ["id", "type", "on_delete", "on_update"]

/-- The relation that is added. -/
def newRelation (ids : IdSupply) (ends : Ends) (options : RelationOptions) (patch : Patch) :
    Relation :=
  Field.patched Relation.fields patch
    { id := identifier (ids.drawn + 1), sourceTableId := ends.sourceTableId,
      sourceColumnId := ends.sourceColumnId, targetTableId := ends.targetTableId,
      targetColumnId := ends.targetColumnId, type := options.type, onDelete := options.onDelete,
      onUpdate := options.onUpdate }

theorem addRelation_gives {ends : Ends} {options : RelationOptions} {r : Relation}
    (h : (addRelation ends options patch p).Gives ids (r, next) ids') :
    HasColumn p.tables ends.sourceTableId ends.sourceColumnId ∧
      HasColumn p.tables ends.targetTableId ends.targetColumnId ∧
      (∀ entry ∈ patch, entry.1 ≠ "id" ∧ entry.1 ∉ Relation.endFields) ∧
      r = newRelation ids ends options patch ∧
      next = some { p with
        tables := Flags.mark [r] p.tables, relations := p.relations ++ [r] } ∧
      ids' = ⟨ids.drawn + 1⟩ ∧
      options.AreChosen ∧ ∀ entry ∈ patch, entry.1 ∈ relationPatchFields := by
  simp only [addRelation, gives_bind, gives_ofExcept, gives_mint, gives_pure, Prod.mk.injEq,
    requireTable_eq_ok, requireColumn_eq_ok] at h
  obtain ⟨⟨⟩, _, ⟨hends, rfl⟩, s, _, ⟨hs, rfl⟩, sc, _, ⟨hsc, rfl⟩, t, _, ⟨ht, rfl⟩, tc, _,
    ⟨htc, rfl⟩, ⟨⟩, _, ⟨htype, rfl⟩, ⟨⟩, _, ⟨hdelete, rfl⟩, ⟨⟩, _, ⟨hupdate, rfl⟩, ⟨⟩, _,
    ⟨hfields, rfl⟩, _, _, ⟨rfl, rfl⟩, ⟨⟩, _, ⟨-, rfl⟩, ⟨rfl, rfl⟩, rfl⟩ := h
  have hallowed := checkFields_eq_ok.1 hfields
  have hid := ne_of_mem_fieldsWithout List.mem_cons_self hallowed
  exact ⟨hasColumn_of_found hs hsc, hasColumn_of_found ht htc,
    fun entry hentry => ⟨hid entry hentry, refuseArguments_eq_ok.1 hends entry hentry⟩, rfl, rfl,
    rfl, ⟨require_eq_ok.1 htype, require_eq_ok.1 hdelete, require_eq_ok.1 hupdate⟩, hallowed⟩

theorem deleteRelation_gives {id : Value} {a : Unit}
    (h : (deleteRelation id p).Gives ids (a, next) ids') :
    (next = none ∨ next = some { p with
      tables := Flags.release (p.relations.filter (·.id.equals id))
        (p.relations.filter (!·.id.equals id)) p.tables
      relations := p.relations.filter (!·.id.equals id) }) ∧ ids' = ids := by
  simp only [deleteRelation] at h
  split at h
  · obtain ⟨heq, rfl⟩ := gives_pure.1 h
    exact ⟨.inl (Prod.mk.inj heq).2.symm, rfl⟩
  · simp only [gives_bind, gives_ofExcept, gives_pure, Prod.mk.injEq] at h
    obtain ⟨⟨⟩, _, ⟨-, rfl⟩, ⟨-, rfl⟩, rfl⟩ := h
    exact ⟨.inr rfl, rfl⟩

/-! ## The whole canvas -/

theorem restore_gives {s : Snapshot} {a : Unit} (h : (restore s p).Gives ids (a, next) ids') :
    next = some (p.withSnapshot s) ∧ ids' = ids := by
  simp only [restore, gives_pure, Prod.mk.injEq] at h
  obtain ⟨⟨-, rfl⟩, rfl⟩ := h
  exact ⟨rfl, rfl⟩

theorem reset_gives {v database : Value} {a : Unit}
    (h : (reset v database p).Gives ids (a, next) ids') :
    ∃ q : Project, next = some q ∧ q.tables = [] ∧ q.relations = [] := by
  simp only [reset, gives_bind, gives_mint, gives_pure, Prod.mk.injEq] at h
  obtain ⟨_, _, ⟨rfl, rfl⟩, ⟨-, rfl⟩, rfl⟩ := h
  exact ⟨_, rfl, rfl, rfl⟩

theorem load_gives {q : Project} {a : Unit} (h : (load q p).Gives ids (a, next) ids') :
    next = some q ∧ Sound q.tables q.relations ∧ ids' = ids := by
  simp only [load, gives_bind, gives_ofExcept, gives_pure, Prod.mk.injEq] at h
  obtain ⟨⟨⟩, _, ⟨hcheck, rfl⟩, ⟨-, rfl⟩, rfl⟩ := h
  exact ⟨rfl, checkIntegrity_eq_ok_iff.1 hcheck, rfl⟩

theorem append_gives {tables : List Table} {relations : List Relation} {a : Unit} :
    (append tables relations p).Gives ids (a, next) ids' ↔
      Sound (p.tables ++ tables) (p.relations ++ relations) ∧
      next = some { p with
        tables := p.tables ++ tables, relations := p.relations ++ relations } ∧ ids' = ids := by
  simp only [append, gives_bind, gives_ofExcept, gives_pure, Prod.mk.injEq]
  constructor
  · rintro ⟨⟨⟩, _, ⟨hcheck, rfl⟩, ⟨-, rfl⟩, rfl⟩
    exact ⟨checkIntegrity_eq_ok_iff.1 hcheck, rfl, rfl⟩
  · rintro ⟨hsound, rfl, rfl⟩
    exact ⟨(), ids', ⟨checkIntegrity_eq_ok_iff.2 hsound, rfl⟩, ⟨trivial, rfl⟩, rfl⟩

/-- A merge succeeds exactly when the texts and identifiers it looks up pass, and what comes of it
is sound. -/
theorem merge_gives {tables : List Table} {relations : List Relation} {a : Unit} :
    (merge tables relations p).Gives ids (a, next) ids' ↔
      Merge.check p tables relations = .ok () ∧
      Sound (Merge.merged p tables relations).tables
        (Merge.merged p tables relations).relations ∧
      next = some (Merge.merged p tables relations) ∧ ids' = ids := by
  simp only [merge, gives_bind, gives_ofExcept, gives_pure, Prod.mk.injEq]
  constructor
  · rintro ⟨⟨⟩, _, ⟨hcheck, rfl⟩, ⟨⟩, _, ⟨hsound, rfl⟩, ⟨-, rfl⟩, rfl⟩
    exact ⟨hcheck, checkIntegrity_eq_ok_iff.1 hsound, rfl, rfl⟩
  · rintro ⟨hcheck, hsound, rfl, rfl⟩
    exact ⟨(), ids', ⟨hcheck, rfl⟩, (), ids', ⟨checkIntegrity_eq_ok_iff.2 hsound, rfl⟩,
      ⟨trivial, rfl⟩, rfl⟩

/-! ## Edits beside the schema -/

/-- Whether an edit leaves the tables and relations alone. -/
def KeepsSchema {α : Type} (edit : Edit α) : Prop :=
  ∀ p ids a q ids', (edit p).Gives ids (a, some q) ids' → q.schema = p.schema

theorem setProjectName_keepsSchema (v : Value) : KeepsSchema (setProjectName v) := by
  intro p ids a q ids' h
  simp only [setProjectName, gives_bind, gives_ofExcept, gives_pure, Prod.mk.injEq,
    Option.some.injEq] at h
  obtain ⟨_, _, -, ⟨-, rfl⟩, -⟩ := h
  rfl

theorem setEngine_keepsSchema (v : Value) : KeepsSchema (setEngine v) := by
  intro p ids a q ids' h
  simp only [setEngine, gives_bind, gives_ofExcept, gives_pure, Prod.mk.injEq,
    Option.some.injEq] at h
  obtain ⟨_, _, -, ⟨-, rfl⟩, -⟩ := h
  rfl

theorem setViewport_keepsSchema (zoom pan : Value) : KeepsSchema (setViewport zoom pan) := by
  intro p ids a q ids' h
  simp only [setViewport, gives_bind, gives_ofExcept, gives_pure, Prod.mk.injEq,
    Option.some.injEq] at h
  obtain ⟨_, _, -, _, _, -, _, _, -, _, _, -, _, _, -, ⟨-, rfl⟩, -⟩ := h
  rfl

theorem addNote_keepsSchema (patch : Patch) : KeepsSchema (addNote patch) := by
  intro p ids a q ids' h
  simp only [addNote, gives_bind, gives_ofExcept, gives_mint, gives_pure, Prod.mk.injEq,
    Option.some.injEq] at h
  obtain ⟨_, _, -, _, _, -, ⟨-, rfl⟩, -⟩ := h
  rfl

theorem updateNote_keepsSchema (id : Value) (patch : Patch) :
    KeepsSchema (updateNote id patch) := by
  intro p ids a q ids' h
  obtain ⟨_, _, -, h⟩ := gives_bind.1 h
  cases hnote : p.notes.find? (·.id.equals id) with
  | none =>
      rw [hnote] at h
      exact absurd h gives_report
  | some note =>
      rw [hnote] at h
      obtain ⟨heq, -⟩ := gives_pure.1 h
      cases heq
      rfl

theorem deleteNote_keepsSchema (id : Value) : KeepsSchema (deleteNote id) := by
  intro p ids a q ids' h
  obtain ⟨heq, -⟩ := gives_pure.1 h
  have hnext := (Prod.mk.inj heq).2
  split at hnext
  · cases hnext
  · cases hnext
    rfl

theorem addLabel_keepsSchema (patch : Patch) : KeepsSchema (addLabel patch) := by
  intro p ids a q ids' h
  simp only [addLabel, gives_bind, gives_ofExcept, gives_mint, gives_pure, Prod.mk.injEq,
    Option.some.injEq] at h
  obtain ⟨_, _, -, _, _, -, ⟨-, rfl⟩, -⟩ := h
  rfl

theorem updateLabel_keepsSchema (id : Value) (patch : Patch) :
    KeepsSchema (updateLabel id patch) := by
  intro p ids a q ids' h
  obtain ⟨_, _, -, h⟩ := gives_bind.1 h
  cases hlabel : p.labels.find? (·.id.equals id) with
  | none =>
      rw [hlabel] at h
      exact absurd h gives_report
  | some label =>
      rw [hlabel] at h
      obtain ⟨heq, -⟩ := gives_pure.1 h
      cases heq
      rfl

theorem deleteLabel_keepsSchema (id : Value) : KeepsSchema (deleteLabel id) := by
  intro p ids a q ids' h
  obtain ⟨heq, -⟩ := gives_pure.1 h
  have hnext := (Prod.mk.inj heq).2
  split at hnext
  · cases hnext
  · cases hnext
    rfl

end Edit

/-! ## Every command -/

/-- Whether a command edits the tables and relations, and not only notes, labels or settings. -/
def Command.EditsSchema : Command → Prop
  | .setProjectName _ | .setEngine _ | .setViewport _ _ => False
  | .addNote _ | .updateNote _ _ | .deleteNote _ => False
  | .addLabel _ | .updateLabel _ _ | .deleteLabel _ => False
  | _ => True

open Edit in
/-- A command that succeeds leaves the tables and relations alone or is one that edits them. -/
theorem Command.schema_cases {name database : Value} {command : Command} {p q : Project}
    {ids ids' : IdSupply} {reply : Reply}
    (h : (command.edit name database p).Gives ids (reply, some q) ids') :
    (q.tables = p.tables ∧ q.relations = p.relations) ∨ command.EditsSchema := by
  have keeps : ∀ {α : Type} {e : Edit α} {a : α}, KeepsSchema e →
      (e p).Gives ids (a, some q) ids' →
      (q.tables = p.tables ∧ q.relations = p.relations) ∨ command.EditsSchema := by
    intro α e a he h
    have hschema := he p ids a q ids' h
    exact .inl ⟨congrArg Prod.fst hschema, congrArg Prod.snd hschema⟩
  cases command <;> (rw [Command.edit, replying_gives] at h; obtain ⟨a, h, -⟩ := h)
  case setProjectName => exact keeps (setProjectName_keepsSchema _) h
  case setEngine => exact keeps (setEngine_keepsSchema _) h
  case setViewport => exact keeps (setViewport_keepsSchema _ _) h
  case addNote => exact keeps (addNote_keepsSchema _) h
  case updateNote => exact keeps (updateNote_keepsSchema _ _) h
  case deleteNote => exact keeps (deleteNote_keepsSchema _) h
  case addLabel => exact keeps (addLabel_keepsSchema _) h
  case updateLabel => exact keeps (updateLabel_keepsSchema _ _) h
  case deleteLabel => exact keeps (deleteLabel_keepsSchema _) h
  all_goals exact .inr trivial

end SchemaDesk
