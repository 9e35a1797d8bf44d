import Mathlib.Data.List.Flatten
import SchemaDesk.Edit.Command
import SchemaDesk.Proofs.Edit.Outcome
import SchemaDesk.Proofs.Schema.Flagged

/-!
# Edits keep projects sound

Each edit of a sound project leaves a sound one.  Three edits bring identifiers of their own, which
must not be in use yet (`IdSupply.FreshFor`); the others change no identifier, or take parts away
together with the relations that end there.  Loading, appending and merging check their result.

Main statement: `Command.keeps_sound`, for every command.
-/

namespace SchemaDesk

/-- The identifiers of the tables, columns and relations of a canvas. -/
def Snapshot.identifiers (s : Snapshot) : List Value :=
  s.tables.map Table.id ++ s.tables.flatMap Table.columnIds ++ s.relations.map Relation.id

/-- None of the identifiers drawn between two states of the supply is in use on a canvas. -/
def IdSupply.FreshFor (ids ids' : IdSupply) (s : Snapshot) : Prop :=
  ∀ n, ids.drawn < n → n ≤ ids'.drawn → Value.str (identifier n) ∉ s.identifiers

instance (ids ids' : IdSupply) (s : Snapshot) : Decidable (ids.FreshFor ids' s) :=
  decidable_of_iff
    (∀ n ∈ List.range' (ids.drawn + 1) (ids'.drawn - ids.drawn),
      Value.str (identifier n) ∉ s.identifiers)
    (by
      simp only [List.mem_range'_1, IdSupply.FreshFor]
      exact ⟨fun h n hn hn' => h n (by omega), fun h n hn => h n (by omega) (by omega)⟩)

/-- No column has an identifier that was drawn afresh. -/
theorem IdSupply.FreshFor.not_column {ids ids' : IdSupply} {s : Snapshot}
    (h : ids.FreshFor ids' s) {n : Nat} (hlo : ids.drawn < n) (hhi : n ≤ ids'.drawn) :
    (Value.str (identifier n)).canon ∉ (s.tables.flatMap Table.columnIds).map Value.canon := by
  rw [Value.canon_str]
  intro hused
  obtain ⟨w, hw, heq⟩ := List.mem_map.1 hused
  rw [Value.canon_eq_str_iff] at heq
  rw [heq] at hw
  exact h n hlo hhi (List.mem_append_left _ (List.mem_append_right _ hw))

/-- Sound tables and relations of a project. -/
abbrev Project.IsSound (p : Project) : Prop :=
  Sound p.tables p.relations

namespace Edit

open Minting

variable {p : Project} {ids ids' : IdSupply} {patch : Patch} {next : Option Project}

/-! ## Tables -/

theorem newTable_id (ids : IdSupply) (clean : Text)
    (h : ∀ entry ∈ patch, entry.1 ∈ fieldsWithout Table.fields ["id", "name"]) :
    (newTable ids clean patch).id = .str (identifier (ids.drawn + 2)) :=
  Table.patched_id (ne_of_mem_fieldsWithout List.mem_cons_self h) _

@[simp] theorem newTable_columns {clean : Text} :
    (newTable ids clean patch).columns = [seedColumn (identifier (ids.drawn + 1))] :=
  Table.patched_columns _

/-- A table by itself is sound when its identifiers are text and its columns different. -/
theorem sound_singleton {t : Table} {a b : Text} (hid : t.id = .str a)
    (hcolumns : t.columnIds = [.str b]) : Sound [t] [] := by
  refine ⟨?_, ?_, ?_, fun r hr => absurd hr List.not_mem_nil⟩
  · simp [hid, hcolumns, Value.isKey]
  · simp
  · simp [hcolumns]

theorem addTable_sound {v : Value} {t : Table} {q : Project}
    (h : (addTable v patch p).Gives ids (t, some q) ids') (hp : p.IsSound)
    (hfresh : ids.FreshFor ids' p.snapshot) : q.IsSound := by
  obtain ⟨clean, -, hfields, rfl, hnext, rfl⟩ := addTable_gives h
  cases hnext
  have hid := newTable_id ids clean hfields
  have hcolumns : (newTable ids clean patch).columnIds = [.str (identifier (ids.drawn + 1))] := by
    rw [Table.columnIds, newTable_columns]
    rfl
  have htable := hfresh (ids.drawn + 2) (by omega) (Nat.le_refl _)
  have happend := hp.append (sound_singleton hid hcolumns) ?_ ?_
  · rwa [List.append_nil] at happend
  · intro a ha b hb heq
    rw [List.map_nil, List.append_nil, List.map_cons, List.map_nil, List.mem_singleton, hid] at hb
    rw [hb, Value.canon_str, Value.canon_eq_str_iff] at heq
    rw [heq] at ha
    refine htable ?_
    rw [List.mem_append] at ha
    simp only [Snapshot.identifiers, Project.snapshot, List.mem_append]
    exact ha.imp .inl id
  · intro a ha b hb heq
    rw [List.flatMap_cons, List.flatMap_nil, List.append_nil, hcolumns, List.mem_singleton] at hb
    refine hfresh.not_column (n := ids.drawn + 1) (by omega) (Nat.le_succ _) ?_
    rw [← hb, ← heq]
    exact List.mem_map_of_mem ha

/-- An update of a table patches it in place, and does not name its identifier. -/
theorem updateTable_keeps {id : Value} {t : Table}
    (h : (updateTable id patch p).Gives ids (t, next) ids') :
    ∃ (u : Table) (patch' : Patch), p.table? id = some u ∧ (∀ entry ∈ patch', entry.1 ≠ "id") ∧
      t = Field.patched Table.fields patch' u ∧
      next = some { p with tables := replaceTable p.tables t } := by
  obtain ⟨u, patch', hu, hfields, hname, ht, hnext, -⟩ := updateTable_gives h
  exact ⟨u, patch', hu,
    withName_spares (· = "id") hname (ne_of_mem_fieldsWithout List.mem_cons_self hfields), ht,
    hnext⟩

theorem updateTable_sound {id : Value} {t : Table} {q : Project}
    (h : (updateTable id patch p).Gives ids (t, some q) ids') (hp : p.IsSound) : q.IsSound := by
  obtain ⟨u, patch', hu, hkeys, rfl, hnext⟩ := updateTable_keeps h
  cases hnext
  obtain ⟨hmem, hid⟩ := Project.table?_eq_some hu
  refine hp.replace hmem ?_ (Value.equals_iff.1 hid).1
  rw [Table.shape, Table.shape, Table.patched_id hkeys, Table.columnIds, Table.patched_columns,
    Table.columnIds]

theorem deleteTable_sound {id : Value} {a : Unit} {q : Project}
    (h : (deleteTable id p).Gives ids (a, some q) ids') (hp : p.IsSound) : q.IsSound := by
  obtain ⟨t, ht, hnext, -⟩ := deleteTable_gives h
  cases hnext
  refine Sound.congr_shape Flags.shape_release ?_
  have htables : (p.tables.filter (!·.id.equals id)).Sublist p.tables := List.filter_sublist
  refine hp.mono (htables.map _) (htables.flatMap Table.columnIds) List.filter_sublist ?_
  -- A relation that is left does not touch the table, so its ends are columns of other tables.
  intro r hr side
  obtain ⟨hr, htouches⟩ := List.mem_filter.1 hr
  obtain ⟨u, hu, hid, hcol⟩ := hp.ends r hr side
  refine ⟨u, List.mem_filter.2 ⟨hu, ?_⟩, hid, hcol⟩
  by_contra hequals
  simp only [Bool.not_eq_true', Bool.not_eq_false] at hequals
  have htouched := Relation.touches_iff.2 ⟨side, hid.symm.trans (Value.canon_of_equals hequals)⟩
  rw [htouched] at htouches
  contradiction

/-! ## Columns -/

theorem addColumn_sound {tableId v type : Value} {c : Column} {q : Project}
    (h : (addColumn tableId v type patch p).Gives ids (c, some q) ids') (hp : p.IsSound)
    (hfresh : ids.FreshFor ids' p.snapshot) : q.IsSound := by
  obtain ⟨t, patch', ht, hpatch, rfl, hnext, rfl, -⟩ := addColumn_gives h
  cases hnext
  obtain ⟨hmem, hid⟩ := Project.table?_eq_some ht
  have hcid : (Field.patched Column.fields patch'
      { id := identifier (ids.drawn + 1), name := .null }).id =
        .str (identifier (ids.drawn + 1)) :=
    Column.patched_id (checkColumnPatch_id hpatch) _
  refine hp.replace_add hmem (Value.equals_iff.1 hid).1 ?_ ?_
  · rw [hcid]
    rfl
  · rw [hcid]
    exact hfresh.not_column (by omega) (Nat.le_refl _)

/-- Changing a column for one of the same identifier changes no identifier. -/
theorem shape_changeColumn {t : Table} {id : Value} {c d : Column} (hd : t.column? id = some d)
    (hnodup : (t.columns.map (·.id.canon)).Nodup) (hid : c.id = d.id) :
    Table.shape { t with columns := changeColumn t.columns id fun _ => c } = t.shape := by
  obtain ⟨hmem, hequals⟩ := Table.column?_eq_some hd
  simp only [Table.shape, Table.columnIds, changeColumn, List.map_map, Prod.mk.injEq, true_and]
  refine List.map_congr_left fun e he => ?_
  by_cases hsame : e.id.equals id = true
  · have heq : e = d := List.inj_on_of_nodup_map hnodup he hmem
      ((Value.canon_of_equals hsame).trans (Value.canon_of_equals hequals).symm)
    rw [Function.comp_apply, if_pos hsame, hid, heq]
  · rw [Function.comp_apply, if_neg hsame]

theorem updateColumn_sound {tableId columnId : Value} {c : Column} {q : Project}
    (h : (updateColumn tableId columnId patch p).Gives ids (c, some q) ids') (hp : p.IsSound) :
    q.IsSound := by
  obtain ⟨t, d, patch', ht, hd, hpatch, rfl, hnext, -⟩ := updateColumn_gives h
  cases hnext
  obtain ⟨hmem, hid⟩ := Project.table?_eq_some ht
  exact hp.replace hmem
    (shape_changeColumn hd (hp.columnIds_nodup hmem)
      (Column.patched_id (checkColumnPatch_id hpatch) d))
    (Value.equals_iff.1 hid).1

theorem deleteColumn_sound {tableId columnId : Value} {a : Unit} {q : Project}
    (h : (deleteColumn tableId columnId p).Gives ids (a, some q) ids') (hp : p.IsSound) :
    q.IsSound := by
  obtain ⟨t, c, ht, hc, -, hnext, -⟩ := deleteColumn_gives h
  cases hnext
  obtain ⟨hmem, hid⟩ := Project.table?_eq_some ht
  refine Sound.congr_shape Flags.shape_release ?_
  obtain ⟨before, after, htables, hreplaced⟩ := replaceTable_split
    { t with columns := t.columns.filter (!·.id.equals columnId) }
    hp.tableIds_nodup hmem rfl (Value.equals_iff.1 hid).1
  have hfewer : (t.columns.filter (!·.id.equals columnId)).Sublist t.columns :=
    List.filter_sublist
  rw [hreplaced]
  refine hp.mono ?_ ?_ List.filter_sublist ?_
  · rw [htables]
    simp
  · rw [htables]
    simp only [List.flatMap_append, List.flatMap_cons]
    exact (List.Sublist.refl _).append ((hfewer.map _).append (List.Sublist.refl _))
  · intro r hr side
    obtain ⟨hr, hnot⟩ := List.mem_filter.1 hr
    obtain ⟨u, hu, huid, hcol⟩ := hp.ends r hr side
    rw [htables, List.mem_append, List.mem_cons] at hu
    rcases hu with hu | rfl | hu
    · exact ⟨u, by simp [hu], huid, hcol⟩
    · -- The relation ends at another column of the table, since it is none of those deleted.
      refine ⟨{ u with columns := u.columns.filter (!·.id.equals columnId) }, by simp, huid, ?_⟩
      obtain ⟨id', hid', hcanon⟩ := List.mem_map.1 hcol
      obtain ⟨d, hd, rfl⟩ := List.mem_map.1 hid'
      rw [← hcanon]
      refine List.mem_map_of_mem (List.mem_map_of_mem (List.mem_filter.2 ⟨hd, ?_⟩))
      by_contra hequals
      simp only [Bool.not_eq_true', Bool.not_eq_false] at hequals
      have htable := huid.symm.trans (Value.canon_of_equals hid)
      have hcolumn := hcanon.symm.trans (Value.canon_of_equals hequals)
      have hat : atColumn tableId columnId r = true := by
        rw [atColumn, Bool.or_eq_true]
        cases side with
        | source => exact .inl (Relation.startsAt_iff.2 ⟨htable, hcolumn⟩)
        | target => exact .inr (Relation.endsAt_iff.2 ⟨htable, hcolumn⟩)
      rw [hat] at hnot
      contradiction
    · exact ⟨u, by simp [hu], huid, hcol⟩

/-! ## Relations -/

theorem newRelation_id {ends : Ends} {options : RelationOptions}
    (h : ∀ entry ∈ patch, entry.1 ≠ "id" ∧ entry.1 ∉ Relation.endFields) :
    (newRelation ids ends options patch).id = .str (identifier (ids.drawn + 1)) :=
  Relation.patched_id (fun entry hentry => (h entry hentry).1) _

theorem newRelation_endIds (ids : IdSupply) (ends : Ends) (options : RelationOptions)
    (h : ∀ entry ∈ patch, entry.1 ≠ "id" ∧ entry.1 ∉ Relation.endFields) :
    (newRelation ids ends options patch).endIds =
      [ends.sourceTableId, ends.sourceColumnId, ends.targetTableId, ends.targetColumnId] :=
  Relation.patched_endIds (fun entry hentry => (h entry hentry).2) _

theorem addRelation_sound {ends : Ends} {options : RelationOptions} {r : Relation} {q : Project}
    (h : (addRelation ends options patch p).Gives ids (r, some q) ids') (hp : p.IsSound)
    (hfresh : ids.FreshFor ids' p.snapshot) : q.IsSound := by
  obtain ⟨hsource, htarget, hpatch, rfl, hnext, rfl, -⟩ := addRelation_gives h
  cases hnext
  have hends := newRelation_endIds ids ends options hpatch
  simp only [Relation.endIds, List.cons.injEq] at hends
  obtain ⟨hst, hsc, htt, htc, -⟩ := hends
  refine Sound.congr_shape Flags.shape_mark (hp.add_relation (newRelation_id hpatch) ?_ ?_)
  · intro hused
    refine hfresh (ids.drawn + 1) (by omega) (Nat.le_refl _) ?_
    simp only [Snapshot.identifiers, Project.snapshot, List.mem_append] at hused ⊢
    exact hused.imp .inl id
  · intro side
    cases side with
    | source =>
        rw [Relation.tableId, Relation.columnId, hst, hsc]
        exact hsource
    | target =>
        rw [Relation.tableId, Relation.columnId, htt, htc]
        exact htarget

theorem deleteRelation_sound {id : Value} {a : Unit} {q : Project}
    (h : (deleteRelation id p).Gives ids (a, some q) ids') (hp : p.IsSound) : q.IsSound := by
  obtain ⟨hnext | hnext, -⟩ := deleteRelation_gives h
  · cases hnext
  · cases hnext
    refine Sound.congr_shape Flags.shape_release ?_
    exact hp.mono (List.Sublist.refl _) (List.Sublist.refl _) List.filter_sublist
      fun r hr => hp.ends r (List.mem_filter.1 hr).1

end Edit

/-! ## Every command -/

open Edit in
/-- A command keeps a sound project sound, if the identifiers that it draws are not in use, and what
it restores was sound. -/
theorem Command.keeps_sound {name database : Value} {command : Command} {p q : Project}
    {ids ids' : IdSupply} {reply : Reply}
    (h : (command.edit name database p).Gives ids (reply, some q) ids') (hp : p.IsSound)
    (hfresh : ids.FreshFor ids' p.snapshot)
    (hrestored : ∀ s, command = .restore s → Sound s.tables s.relations) : q.IsSound := by
  rcases Command.schema_cases h with ⟨htables, hrelations⟩ | hedits
  · rw [Project.IsSound, htables, hrelations]
    exact hp
  -- Commands that leave the schema alone are done, so each case left is one that edits it.
  cases command <;> (rw [Command.edit, replying_gives] at h; obtain ⟨a, h, -⟩ := h) <;>
    try exact hedits.elim
  case reset =>
    obtain ⟨q', hnext, htables, hrelations⟩ := reset_gives h
    cases hnext
    rw [Project.IsSound, htables, hrelations]
    exact Sound.nil
  case addTable => exact addTable_sound h hp hfresh
  case updateTable => exact updateTable_sound h hp
  case moveTable => exact updateTable_sound h hp
  case deleteTable => exact deleteTable_sound h hp
  case addColumn => exact addColumn_sound h hp hfresh
  case updateColumn => exact updateColumn_sound h hp
  case deleteColumn => exact deleteColumn_sound h hp
  case addRelation => exact addRelation_sound h hp hfresh
  case deleteRelation => exact deleteRelation_sound h hp
  case restore =>
    obtain ⟨hnext, -⟩ := restore_gives h
    cases hnext
    exact hrestored _ rfl
  case load =>
    obtain ⟨hnext, hsound, -⟩ := load_gives h
    cases hnext
    exact hsound
  case append =>
    obtain ⟨hsound, hnext, -⟩ := append_gives.1 h
    cases hnext
    exact hsound
  case merge =>
    obtain ⟨-, hsound, hnext, -⟩ := merge_gives.1 h
    cases hnext
    exact hsound

end SchemaDesk
