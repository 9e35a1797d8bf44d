import SchemaDesk.Proofs.Schema.Sound

/-!
# One table in place of another

Tables and columns are found by identifier, and a table is replaced by putting the new one in place
of every table of its identifier.  In sound tables there is only one, so the list splits around it
(`replaceTable_split`).  From this follows what a replacement does to soundness: nothing when the
shape of the table stays the same (`Sound.replace`), and one more column when the table gets one
(`Sound.replace_add`).
-/

namespace SchemaDesk

section Found

variable {p : Project} {t : Table} {c : Column} {id : Value}

theorem Project.table?_eq_some (h : p.table? id = some t) :
    t ∈ p.tables ∧ t.id.equals id = true := by
  have hid := List.find?_some h
  exact ⟨List.mem_of_find?_eq_some h, hid⟩

theorem Table.column?_eq_some (h : t.column? id = some c) :
    c ∈ t.columns ∧ c.id.equals id = true := by
  have hid := List.find?_some h
  exact ⟨List.mem_of_find?_eq_some h, hid⟩

/-- A column that is found is there, whatever way its identifiers are written. -/
theorem hasColumn_of_found {columnId : Value} (ht : p.table? id = some t)
    (hc : t.column? columnId = some c) : HasColumn p.tables id columnId := by
  obtain ⟨hmem, hid⟩ := Project.table?_eq_some ht
  obtain ⟨hcol, hcid⟩ := Table.column?_eq_some hc
  refine ⟨t, hmem, Value.canon_of_equals hid, ?_⟩
  rw [← Value.canon_of_equals hcid]
  exact List.mem_map_of_mem (List.mem_map_of_mem hcol)

end Found

variable {tables : List Table} {relations : List Relation} {t t' : Table}

theorem mem_replaceTable {u : Table} (h : u ∈ replaceTable tables t') : u = t' ∨ u ∈ tables := by
  obtain ⟨v, hv, rfl⟩ := List.mem_map.1 h
  by_cases hid : v.id.equals t'.id = true
  · exact .inl (if_pos hid)
  · rw [if_neg hid]
    exact .inr hv

/-- Replacing finds nothing where no table has the identifier. -/
theorem replaceTable_of_not_mem (h : t'.id.canon ∉ tables.map (·.id.canon)) :
    replaceTable tables t' = tables := by
  have hkeep : ∀ u ∈ tables, (if u.id.equals t'.id then t' else u) = id u := by
    intro u hu
    refine if_neg fun heq => h ?_
    rw [← Value.canon_of_equals heq]
    exact List.mem_map_of_mem hu
  rw [replaceTable, List.map_congr_left hkeep, List.map_id]

/-- The list splits around the one table that is replaced. -/
theorem replaceTable_split (t' : Table) (hids : (tables.map (·.id.canon)).Nodup) (ht : t ∈ tables)
    (hid : t'.id = t.id) (hnan : t.id.isNan = false) :
    ∃ before after, tables = before ++ t :: after ∧
      replaceTable tables t' = before ++ t' :: after := by
  obtain ⟨before, after, rfl⟩ := List.append_of_mem ht
  refine ⟨before, after, rfl, ?_⟩
  rw [List.map_append, List.map_cons, List.nodup_append, List.nodup_cons] at hids
  obtain ⟨-, ⟨hafter, -⟩, hbefore⟩ := hids
  have hself : t.id.equals t'.id = true := by
    rw [hid]
    exact Value.equals_iff.2 ⟨hnan, rfl⟩
  have hb : replaceTable before t' = before := by
    refine replaceTable_of_not_mem fun hmem => ?_
    rw [hid] at hmem
    exact hbefore _ hmem _ List.mem_cons_self rfl
  have ha : replaceTable after t' = after := by
    refine replaceTable_of_not_mem fun hmem => ?_
    rw [hid] at hmem
    exact hafter hmem
  -- on either side of the table nothing is replaced, since no other has its identifier
  rw [replaceTable, List.map_append, List.map_cons, if_pos hself]
  rw [replaceTable] at hb ha
  rw [hb, ha]

namespace Sound

/-- A table of the same shape in place of another keeps soundness. -/
theorem replace (h : Sound tables relations) (ht : t ∈ tables)
    (hshape : t'.shape = t.shape) (hnan : t.id.isNan = false) :
    Sound (replaceTable tables t') relations := by
  obtain ⟨before, after, rfl, hreplaced⟩ :=
    replaceTable_split t' h.tableIds_nodup ht (congrArg Prod.fst hshape) hnan
  refine h.congr_shape ?_
  rw [hreplaced]
  simp [hshape]

/-- A column whose identifier nobody uses may be added to a table. -/
theorem replace_add {c : Column} (h : Sound tables relations) (ht : t ∈ tables)
    (hnan : t.id.isNan = false) (hkey : c.id.isKey = true)
    (hfresh : c.id.canon ∉ (tables.flatMap Table.columnIds).map Value.canon) :
    Sound (replaceTable tables { t with columns := t.columns ++ [c] }) relations := by
  obtain ⟨before, after, rfl, hreplaced⟩ :=
    replaceTable_split { t with columns := t.columns ++ [c] } h.tableIds_nodup ht rfl hnan
  rw [hreplaced]
  have hperm : List.Perm
      ((before ++ { t with columns := t.columns ++ [c] } :: after).flatMap Table.columnIds)
      (c.id :: (before ++ t :: after).flatMap Table.columnIds) := by
    simp only [List.flatMap_append, List.flatMap_cons, Table.columnIds, List.map_append,
      List.map_cons, List.map_nil, List.append_assoc, List.singleton_append]
    rw [← List.append_assoc, ← List.append_assoc]
    exact List.perm_middle
  have hids : (before ++ { t with columns := t.columns ++ [c] } :: after).map Table.id =
      (before ++ t :: after).map Table.id := by
    simp
  refine ⟨?_, ?_, ?_, ?_⟩
  · intro id hid
    rw [hids, List.append_assoc, List.mem_append, List.mem_append] at hid
    rcases hid with hid | hid | hid
    · exact h.keys id (List.mem_append_left _ (List.mem_append_left _ hid))
    · rcases List.mem_cons.1 (hperm.mem_iff.1 hid) with rfl | hid
      · exact hkey
      · exact h.keys id (List.mem_append_left _ (List.mem_append_right _ hid))
    · exact h.keys id (List.mem_append_right _ hid)
  · rw [hids]
    exact h.entities
  · rw [(hperm.map Value.canon).nodup_iff, List.map_cons, List.nodup_cons]
    exact ⟨hfresh, h.columns⟩
  · intro r hr side
    obtain ⟨u, hu, hid, hcol⟩ := h.ends r hr side
    rw [List.mem_append, List.mem_cons] at hu
    rcases hu with hu | rfl | hu
    · exact ⟨u, by simp [hu], hid, hcol⟩
    · refine ⟨{ u with columns := u.columns ++ [c] }, by simp, hid, ?_⟩
      rw [Table.columnIds, List.map_append, List.map_append]
      exact List.mem_append_left _ hcol
    · exact ⟨u, by simp [hu], hid, hcol⟩

end Sound

end SchemaDesk
