import SchemaDesk.Proofs.Edit.Merged

/-!
# Edits keep foreign-key flags exact

Adding relations marks their source columns, deleting parts releases the columns that lost their
last relation, and merging synchronises all columns.  Each keeps the flags exact if nobody else sets
them: patches of columns must leave the fields alone that repeat a relation.

A released column is looked up by the identifier of its table, and what is not a number is never
found.  So the flags are exact only together with tables whose identifiers can be found.

Main statement: `Command.keeps_flagged`.
-/

namespace SchemaDesk

/-- The fields of a column that repeat the relation which starts at it. -/
def Column.linkFields : List Text :=
  ["is_foreign_key", "references_table_id", "references_column_id"]

/-- Sound tables that can be found, with exact flags. -/
structure Flagged (tables : List Table) (relations : List Relation) : Prop where
  sound : Sound tables relations
  found : ∀ t ∈ tables, t.id.isNan = false
  flags : FlagsExact tables relations

/-- Whether a command leaves the flags to the relations: it takes in no columns but those that it
merges, whose tables can be found, and patches none of the fields that repeat a relation. -/
def Command.LeavesFlags : Command → Prop
  | .addColumn _ _ _ patch => ∀ entry ∈ patch, entry.1 ∉ Column.linkFields
  | .updateColumn _ _ patch => ∀ entry ∈ patch, entry.1 ∉ Column.linkFields
  | .merge tables _ => ∀ t ∈ tables, t.id.isNan = false
  | .load _ => False
  | .append _ _ => False
  | _ => True

section Parts

variable {tables : List Table} {relations : List Relation} {t t' : Table}

/-- A table in place of another keeps flags exact if each of its columns either was there with the
same flag, or is not flagged and has no relation. -/
theorem FlagsExact.replace (h : FlagsExact tables relations) (t' : Table) (ht : t ∈ tables)
    (hid : t'.id = t.id) (hcolumns : ∀ c ∈ t'.columns,
      (∃ d ∈ t.columns, c.id = d.id ∧ c.isForeignKey = d.isForeignKey) ∨
        (c.isForeignKey.isTruthy = false ∧ ∀ r ∈ relations, r.startsAt t.id c.id = false)) :
    FlagsExact (replaceTable tables t') relations := by
  intro u hu c hc
  rcases mem_replaceTable hu with rfl | hu
  · rw [hid]
    rcases hcolumns c hc with ⟨d, hd, hcid, hflag⟩ | ⟨hflag, hnone⟩
    · rw [hcid, hflag]
      exact h t ht d hd
    · refine iff_of_false (by rw [hflag]; exact Bool.false_ne_true) ?_
      rintro ⟨r, hr, hstarts⟩
      rw [hnone r hr] at hstarts
      contradiction
  · exact h u hu c hc

theorem found_replaceTable (t' : Table) (h : ∀ t ∈ tables, t.id.isNan = false) (ht : t ∈ tables)
    (hid : t'.id = t.id) : ∀ u ∈ replaceTable tables t', u.id.isNan = false := by
  intro u hu
  rcases mem_replaceTable hu with rfl | hu
  · rw [hid]
    exact h t ht
  · exact h u hu

/-- Whether tables can be found depends on their shapes only. -/
theorem found_congr_shape {tables' : List Table}
    (hshape : tables'.map Table.shape = tables.map Table.shape)
    (h : ∀ t ∈ tables, t.id.isNan = false) : ∀ t ∈ tables', t.id.isNan = false := by
  intro t ht
  have hmem : t.shape ∈ tables.map Table.shape := by
    rw [← hshape]
    exact List.mem_map_of_mem ht
  obtain ⟨u, hu, hshapeEq⟩ := List.mem_map.1 hmem
  have hid : u.id = t.id := congrArg Prod.fst hshapeEq
  rw [← hid]
  exact h u hu

/-- A list is split by a condition. -/
theorem mem_filter_or_not {α : Type} {xs : List α} (f : α → Bool) :
    ∀ x ∈ xs, x ∈ xs.filter f ∨ x ∈ xs.filter (!f ·) := by
  intro x hx
  by_cases h : f x = true
  · exact .inl (List.mem_filter.2 ⟨hx, h⟩)
  · exact .inr (List.mem_filter.2 ⟨hx, by simpa using h⟩)

/-- No relation starts at an identifier that no column has. -/
theorem Sound.startsAt_fresh (h : Sound tables relations) {tableId columnId : Value} {r : Relation}
    (hr : r ∈ relations)
    (hfresh : columnId.canon ∉ (tables.flatMap Table.columnIds).map Value.canon) :
    r.startsAt tableId columnId = false := by
  rw [← Bool.not_eq_true, Relation.startsAt_iff]
  rintro ⟨-, hcolumn⟩
  obtain ⟨t, ht, -, hmem⟩ := h.ends r hr .source
  rw [Relation.columnId, hcolumn] at hmem
  obtain ⟨id, hid, hcanon⟩ := List.mem_map.1 hmem
  rw [← hcanon] at hfresh
  exact hfresh (List.mem_map_of_mem (List.mem_flatMap.2 ⟨t, ht, hid⟩))

end Parts

namespace Edit

open Minting

variable {p q : Project} {ids ids' : IdSupply} {patch : Patch}

/-! ## Tables -/

theorem addTable_flagged {v : Value} {t : Table}
    (h : (addTable v patch p).Gives ids (t, some q) ids') (hp : Flagged p.tables p.relations)
    (hfresh : ids.FreshFor ids' p.snapshot) : Flagged q.tables q.relations := by
  have hsound := addTable_sound h hp.sound hfresh
  obtain ⟨clean, -, hfields, rfl, hnext, rfl⟩ := addTable_gives h
  cases hnext
  refine ⟨hsound, ?_, ?_⟩
  · intro u hu
    rcases List.mem_append.1 hu with hu | hu
    · exact hp.found u hu
    · rw [List.mem_singleton.1 hu, newTable_id _ _ hfields]
      rfl
  · intro u hu c hc
    rcases List.mem_append.1 hu with hu | hu
    · exact hp.flags u hu c hc
    · rw [List.mem_singleton.1 hu] at hc ⊢
      rw [newTable_columns, List.mem_singleton] at hc
      subst hc
      refine iff_of_false Bool.false_ne_true ?_
      rintro ⟨r, hr, hstarts⟩
      have hcolumn : (seedColumn (identifier (ids.drawn + 1))).id.canon ∉
          (p.tables.flatMap Table.columnIds).map Value.canon :=
        hfresh.not_column (Nat.lt_succ_self ids.drawn) (Nat.le_succ _)
      rw [hp.sound.startsAt_fresh hr hcolumn] at hstarts
      contradiction

theorem updateTable_flagged {id : Value} {t : Table}
    (h : (updateTable id patch p).Gives ids (t, some q) ids') (hp : Flagged p.tables p.relations) :
    Flagged q.tables q.relations := by
  have hsound := updateTable_sound h hp.sound
  obtain ⟨u, patch', hu, hkeys, rfl, hnext⟩ := updateTable_keeps h
  cases hnext
  obtain ⟨hmem, -⟩ := Project.table?_eq_some hu
  have hid := Table.patched_id hkeys u
  refine ⟨hsound, found_replaceTable _ hp.found hmem hid, ?_⟩
  refine hp.flags.replace _ hmem hid fun c hc => ?_
  rw [Table.patched_columns] at hc
  exact .inl ⟨c, hc, rfl, rfl⟩

theorem deleteTable_flagged {id : Value} {a : Unit}
    (h : (deleteTable id p).Gives ids (a, some q) ids') (hp : Flagged p.tables p.relations) :
    Flagged q.tables q.relations := by
  have hsound := deleteTable_sound h hp.sound
  obtain ⟨t, ht, hnext, -⟩ := deleteTable_gives h
  cases hnext
  have hfound : ∀ t ∈ p.tables.filter (!·.id.equals id), t.id.isNan = false := fun t ht =>
    hp.found t (List.mem_filter.1 ht).1
  refine ⟨hsound, found_congr_shape Flags.shape_release hfound, ?_⟩
  have hflags : FlagsExact (p.tables.filter (!·.id.equals id)) p.relations :=
    hp.flags.mono fun t ht =>
      ⟨t, (List.mem_filter.1 ht).1, rfl, fun c hc => ⟨c, hc, rfl, rfl⟩⟩
  exact Flags.release_exact hflags hfound (mem_filter_or_not _) fun r hr => (List.mem_filter.1 hr).1

/-! ## Columns -/

theorem ne_flag_of_notMem_linkFields (h : ∀ entry ∈ patch, entry.1 ∉ Column.linkFields) :
    ∀ entry ∈ patch, ¬ entry.1 = "is_foreign_key" := by
  intro entry hentry heq
  refine h entry hentry ?_
  rw [heq]
  exact List.mem_cons_self

theorem addColumn_flagged {tableId v type : Value} {c : Column}
    (h : (addColumn tableId v type patch p).Gives ids (c, some q) ids')
    (hp : Flagged p.tables p.relations) (hfresh : ids.FreshFor ids' p.snapshot)
    (hpatch : ∀ entry ∈ patch, entry.1 ∉ Column.linkFields) : Flagged q.tables q.relations := by
  have hsound := addColumn_sound h hp.sound hfresh
  obtain ⟨t, patch', ht, hcheck, rfl, hnext, rfl, -⟩ := addColumn_gives h
  cases hnext
  obtain ⟨hmem, -⟩ := Project.table?_eq_some ht
  have hid := checkColumnPatch_id hcheck
  have hflag : ∀ entry ∈ patch', ¬ entry.1 = "is_foreign_key" := by
    refine withName_spares (· = "is_foreign_key") (checkColumnPatch_eq_ok hcheck).2 ?_
    simp only [List.forall_mem_cons]
    exact ⟨by decide +revert, by decide +revert, ne_flag_of_notMem_linkFields hpatch⟩
  refine ⟨hsound, found_replaceTable _ hp.found hmem rfl, ?_⟩
  refine hp.flags.replace _ hmem rfl fun d hd => ?_
  rcases List.mem_append.1 hd with hd | hd
  · exact .inl ⟨d, hd, rfl, rfl⟩
  · right
    rw [List.mem_singleton.1 hd, Column.patched_isForeignKey hflag, Column.patched_id hid]
    exact ⟨rfl, fun r hr => hp.sound.startsAt_fresh hr
      (hfresh.not_column (by omega) (Nat.le_refl _))⟩

theorem updateColumn_flagged {tableId columnId : Value} {c : Column}
    (h : (updateColumn tableId columnId patch p).Gives ids (c, some q) ids')
    (hp : Flagged p.tables p.relations)
    (hpatch : ∀ entry ∈ patch, entry.1 ∉ Column.linkFields) : Flagged q.tables q.relations := by
  have hsound := updateColumn_sound h hp.sound
  obtain ⟨t, d, patch', ht, hd, hcheck, rfl, hnext, -⟩ := updateColumn_gives h
  cases hnext
  obtain ⟨hmem, -⟩ := Project.table?_eq_some ht
  obtain ⟨hdmem, hdid⟩ := Table.column?_eq_some hd
  have hid := checkColumnPatch_id hcheck
  have hflag := withName_spares (· = "is_foreign_key") (checkColumnPatch_eq_ok hcheck).2
    (ne_flag_of_notMem_linkFields hpatch)
  refine ⟨hsound, found_replaceTable _ hp.found hmem rfl, ?_⟩
  refine hp.flags.replace _ hmem rfl fun e he => ?_
  left
  obtain ⟨e', he', rfl⟩ := List.mem_map.1 he
  split
  · next hsame =>
      exact ⟨d, hdmem, Column.patched_id hid d, Column.patched_isForeignKey hflag d⟩
  · exact ⟨e', he', rfl, rfl⟩

theorem deleteColumn_flagged {tableId columnId : Value} {a : Unit}
    (h : (deleteColumn tableId columnId p).Gives ids (a, some q) ids')
    (hp : Flagged p.tables p.relations) : Flagged q.tables q.relations := by
  have hsound := deleteColumn_sound h hp.sound
  obtain ⟨t, c, ht, hc, -, hnext, -⟩ := deleteColumn_gives h
  cases hnext
  obtain ⟨hmem, -⟩ := Project.table?_eq_some ht
  have hfound := found_replaceTable { t with columns := t.columns.filter (!·.id.equals columnId) }
    hp.found hmem rfl
  refine ⟨hsound, found_congr_shape Flags.shape_release hfound, ?_⟩
  have hflags := hp.flags.replace
    { t with columns := t.columns.filter (!·.id.equals columnId) } hmem rfl
    fun d hd => .inl ⟨d, (List.mem_filter.1 hd).1, rfl, rfl⟩
  exact Flags.release_exact hflags hfound (mem_filter_or_not _) fun r hr => (List.mem_filter.1 hr).1

/-! ## Relations -/

theorem addRelation_flagged {ends : Ends} {options : RelationOptions} {r : Relation}
    (h : (addRelation ends options patch p).Gives ids (r, some q) ids')
    (hp : Flagged p.tables p.relations) (hfresh : ids.FreshFor ids' p.snapshot) :
    Flagged q.tables q.relations := by
  have hsound := addRelation_sound h hp.sound hfresh
  obtain ⟨-, -, -, rfl, hnext, -⟩ := addRelation_gives h
  cases hnext
  exact ⟨hsound, found_congr_shape Flags.shape_mark hp.found, Flags.mark_exact hp.flags⟩

theorem deleteRelation_flagged {id : Value} {a : Unit}
    (h : (deleteRelation id p).Gives ids (a, some q) ids') (hp : Flagged p.tables p.relations) :
    Flagged q.tables q.relations := by
  have hsound := deleteRelation_sound h hp.sound
  obtain ⟨hnext | hnext, -⟩ := deleteRelation_gives h
  · cases hnext
  · cases hnext
    refine ⟨hsound, found_congr_shape Flags.shape_release hp.found, ?_⟩
    exact Flags.release_exact hp.flags hp.found (mem_filter_or_not _)
      fun r hr => (List.mem_filter.1 hr).1

/-! ## Declared tables -/

/-- Merging makes the flags exact, whatever they were on either side. -/
theorem merged_flagged {tables : List Table} {relations : List Relation}
    (hp : ∀ t ∈ p.tables, t.id.isNan = false) (htables : ∀ t ∈ tables, t.id.isNan = false)
    (hsound : (Merge.merged p tables relations).IsSound) :
    Flagged (Merge.merged p tables relations).tables
      (Merge.merged p tables relations).relations := by
  refine ⟨hsound, found_congr_shape (Merge.merged_shape p tables relations) fun t ht => ?_,
    Flags.sync_exact⟩
  have hid := (Merge.joinedTables_ids p tables).subset (List.mem_map_of_mem ht)
  obtain ⟨u, hu, huid⟩ := List.mem_map.1 hid
  rw [← huid]
  rcases List.mem_append.1 hu with hu | hu
  · exact hp u hu
  · exact htables u hu

end Edit

/-- Declared tables put beside those of a project keep the flags exact. -/
theorem Sql.Declares.flagged_beside {before after : IdSupply} {p : Project} {tables : List Table}
    {relations : List Relation} (h : Sql.Declares before after tables relations)
    (hp : Flagged p.tables p.relations)
    (hsound : Sound (p.tables ++ tables) (p.relations ++ relations)) :
    Flagged (p.tables ++ tables) (p.relations ++ relations) := by
  obtain ⟨-, -, hdiffer⟩ := hsound.tableIds_append
  refine ⟨hsound, ?_, hp.flags.append h.flags ?_ ?_⟩
  · intro t ht
    rcases List.mem_append.1 ht with ht | ht
    · exact hp.found t ht
    · exact Value.isNan_of_text (h.tableId ht)
  · exact startsAt_of_apart hdiffer h.ends
  · exact startsAt_of_apart (fun t ht u hu heq => hdiffer u hu t ht heq.symm) hp.sound.ends

/-! ## Every command -/

open Edit in
/-- A command that leaves the flags to the relations keeps them exact. -/
theorem Command.keeps_flagged {name database : Value} {command : Command} {p q : Project}
    {ids ids' : IdSupply} {reply : Reply}
    (h : (command.edit name database p).Gives ids (reply, some q) ids')
    (hleaves : command.LeavesFlags) (hp : Flagged p.tables p.relations)
    (hfresh : ids.FreshFor ids' p.snapshot)
    (hrestored : ∀ s, command = .restore s → Flagged s.tables s.relations) :
    Flagged q.tables q.relations := by
  rcases Command.schema_cases h with ⟨htables, hrelations⟩ | hedits
  · rw [htables, hrelations]
    exact hp
  cases command <;> (rw [Command.edit, replying_gives] at h; obtain ⟨a, h, -⟩ := h) <;>
    try exact hedits.elim
  case reset =>
    obtain ⟨q', hnext, htables, hrelations⟩ := reset_gives h
    cases hnext
    rw [htables, hrelations]
    exact ⟨Sound.nil, fun t ht => absurd ht List.not_mem_nil, FlagsExact.nil⟩
  case addTable => exact addTable_flagged h hp hfresh
  case updateTable => exact updateTable_flagged h hp
  case moveTable => exact updateTable_flagged h hp
  case deleteTable => exact deleteTable_flagged h hp
  case addColumn => exact addColumn_flagged h hp hfresh hleaves
  case updateColumn => exact updateColumn_flagged h hp hleaves
  case deleteColumn => exact deleteColumn_flagged h hp
  case addRelation => exact addRelation_flagged h hp hfresh
  case deleteRelation => exact deleteRelation_flagged h hp
  case restore =>
    obtain ⟨hnext, -⟩ := restore_gives h
    cases hnext
    exact hrestored _ rfl
  case load => exact hleaves.elim
  case append => exact hleaves.elim
  case merge =>
    obtain ⟨-, hsound, hnext, -⟩ := merge_gives.1 h
    cases hnext
    exact merged_flagged hp.found hleaves hsound

end SchemaDesk
