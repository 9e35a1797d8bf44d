import SchemaDesk.Edit.Flags
import SchemaDesk.Proofs.Schema.Sound

/-!
# Exact foreign-key flags

`FlagsExact` holds when a column is flagged as a foreign key exactly if a relation starts at it.
The three functions that bring flags in line each have one theorem here: synchronising makes the
flags exact whatever they were, and marking and releasing keep them exact when relations come and
go.

None of the three changes an identifier, so the shapes of the tables stay as they are.
-/

namespace SchemaDesk

/-- A column is flagged exactly when one of the relations starts at it. -/
def FlagsExact (tables : List Table) (relations : List Relation) : Prop :=
  ∀ t ∈ tables, ∀ c ∈ t.columns,
    (c.isForeignKey.isTruthy = true ↔ ∃ r ∈ relations, r.startsAt t.id c.id = true)

theorem Relation.startsAt_iff {r : Relation} {t c : Value} :
    r.startsAt t c = true ↔
      r.sourceTableId.canon = t.canon ∧ r.sourceColumnId.canon = c.canon := by
  rw [startsAt, Bool.and_eq_true, Value.same_iff, Value.same_iff]

theorem Relation.endsAt_iff {r : Relation} {t c : Value} :
    r.endsAt t c = true ↔
      r.targetTableId.canon = t.canon ∧ r.targetColumnId.canon = c.canon := by
  rw [endsAt, Bool.and_eq_true, Value.same_iff, Value.same_iff]

theorem Relation.touches_iff {r : Relation} {t : Value} :
    r.touches t = true ↔ ∃ side, (r.tableId side).canon = t.canon := by
  rw [touches, Bool.or_eq_true, Value.same_iff, Value.same_iff]
  constructor
  · rintro (h | h)
    · exact ⟨.source, h⟩
    · exact ⟨.target, h⟩
  · rintro ⟨side, h⟩
    cases side with
    | source => exact .inl h
    | target => exact .inr h

/-- Something of two lists put together is something of either list. -/
theorem exists_mem_append {α : Type} {P : α → Prop} {xs ys : List α} :
    (∃ x ∈ xs ++ ys, P x) ↔ (∃ x ∈ xs, P x) ∨ ∃ x ∈ ys, P x := by
  simp only [List.mem_append, or_and_right, exists_or]

/-- A table with its columns changed, each by what is given for it. -/
def decorate (change : Value → Column → Column) (t : Table) : Table :=
  { t with columns := t.columns.map (change t.id) }

namespace Flags

variable {tables : List Table} {relations removed remaining : List Relation}

/-! ## Single columns -/

@[simp] theorem flagged_id (r : Relation) (c : Column) : (flagged r c).id = c.id := by
  rw [flagged]
  split <;> rfl

theorem flagged_isTruthy (r : Relation) (c : Column) :
    (flagged r c).isForeignKey.isTruthy = true := by
  rw [flagged]
  split
  · next h =>
      rw [Bool.and_eq_true, Bool.and_eq_true] at h
      exact h.1.1
  · rfl

theorem lastFrom?_eq_some {t c : Value} {r : Relation} (h : lastFrom? relations t c = some r) :
    r ∈ relations ∧ r.startsAt t c = true :=
  ⟨List.mem_reverse.1 (List.mem_of_find?_eq_some h), List.find?_some h⟩

theorem lastFrom?_eq_none {t c : Value} :
    lastFrom? relations t c = none ↔ ∀ r ∈ relations, r.startsAt t c = false := by
  simp [lastFrom?]

theorem lastFrom?_append (relations relations' : List Relation) (t c : Value) :
    lastFrom? (relations ++ relations') t c =
      (lastFrom? relations' t c).or (lastFrom? relations t c) := by
  rw [lastFrom?, List.reverse_append, List.find?_append, lastFrom?, lastFrom?]

/-- A column of a table with the mark of the last of some relations that starts at it. -/
def hinted (relations : List Relation) (tableId : Value) (c : Column) : Column :=
  match lastFrom? relations tableId c.id with
  | some r =>
      { c with
        isForeignKey := true, referencesTableId := r.targetTableId,
        referencesColumnId := r.targetColumnId }
  | none => c

theorem hinted_id (relations : List Relation) (t : Value) (c : Column) :
    (hinted relations t c).id = c.id := by
  rw [hinted]
  cases lastFrom? relations t c.id <;> rfl

/-! ## All columns -/

theorem mapColumns_eq (change : Value → Column → Column) (tables : List Table) :
    mapColumns change tables = tables.map (decorate change) := rfl

theorem mem_mapColumns {change : Value → Column → Column} {t : Table} :
    t ∈ mapColumns change tables ↔
      ∃ u ∈ tables, { u with columns := u.columns.map (change u.id) } = t := by
  simp [mapColumns]

/-- Flags after a change of columns that keeps their identifiers. -/
theorem flagsExact_mapColumns {change : Value → Column → Column}
    (hid : ∀ t c, (change t c).id = c.id) :
    FlagsExact (mapColumns change tables) relations ↔
      ∀ t ∈ tables, ∀ c ∈ t.columns, ((change t.id c).isForeignKey.isTruthy = true ↔
        ∃ r ∈ relations, r.startsAt t.id c.id = true) := by
  constructor
  · intro h t ht c hc
    have hchanged := h _ (mem_mapColumns.2 ⟨t, ht, rfl⟩) _ (List.mem_map_of_mem hc)
    rwa [hid] at hchanged
  · intro h u hu d hd
    obtain ⟨t, ht, rfl⟩ := mem_mapColumns.1 hu
    obtain ⟨c, hc, rfl⟩ := List.mem_map.1 hd
    rw [hid]
    exact h t ht c hc

theorem shape_mapColumns {change : Value → Column → Column}
    (hid : ∀ t c, (change t c).id = c.id) :
    (mapColumns change tables).map Table.shape = tables.map Table.shape := by
  rw [mapColumns, List.map_map]
  refine List.map_congr_left fun t _ => ?_
  simp [Table.shape, Table.columnIds, hid]

/-- What marking does to a column. -/
def marked (relations : List Relation) (t : Value) (c : Column) : Column :=
  match lastFrom? relations t c.id with
  | some r => flagged r c
  | none => c

theorem mark_eq : mark relations tables = mapColumns (marked relations) tables := rfl

theorem marked_id (relations : List Relation) (t : Value) (c : Column) :
    (marked relations t c).id = c.id := by
  rw [marked]
  cases lastFrom? relations t c.id <;> simp

theorem marked_isTruthy (t : Value) (c : Column) :
    (marked relations t c).isForeignKey.isTruthy = true ↔
      c.isForeignKey.isTruthy = true ∨ ∃ r ∈ relations, r.startsAt t c.id = true := by
  rw [marked]
  cases h : lastFrom? relations t c.id with
  | none =>
      have hnone := lastFrom?_eq_none.1 h
      simp only [iff_self_or]
      rintro ⟨r, hr, hstarts⟩
      rw [hnone r hr] at hstarts
      contradiction
  | some r =>
      obtain ⟨hr, hstarts⟩ := lastFrom?_eq_some h
      exact iff_of_true (flagged_isTruthy r c) (.inr ⟨r, hr, hstarts⟩)

theorem shape_mark : (mark relations tables).map Table.shape = tables.map Table.shape :=
  shape_mapColumns (marked_id relations)

/-- Marking keeps flags exact when the relations are added that it marks for. -/
theorem mark_exact {added : List Relation} (h : FlagsExact tables relations) :
    FlagsExact (mark added tables) (relations ++ added) := by
  rw [mark_eq, flagsExact_mapColumns (marked_id added)]
  intro t ht c hc
  rw [marked_isTruthy, h t ht c hc, exists_mem_append]

/-- What releasing does to a column. -/
def released (removed remaining : List Relation) (t : Value) (c : Column) : Column :=
  if !t.isNan && removed.any (·.startsAt t c.id) && !remaining.any (·.startsAt t c.id)
  then cleared c else c

theorem release_eq :
    release removed remaining tables = mapColumns (released removed remaining) tables := rfl

theorem released_id (removed remaining : List Relation) (t : Value) (c : Column) :
    (released removed remaining t c).id = c.id := by
  rw [released]
  split <;> rfl

theorem shape_release :
    (release removed remaining tables).map Table.shape = tables.map Table.shape :=
  shape_mapColumns (released_id removed remaining)

/-- Releasing keeps flags exact when relations are removed.  A table whose identifier is not a
number would be passed over, so there must be none. -/
theorem release_exact (h : FlagsExact tables relations)
    (hnan : ∀ t ∈ tables, t.id.isNan = false)
    (hsplit : ∀ r ∈ relations, r ∈ removed ∨ r ∈ remaining)
    (hremaining : ∀ r ∈ remaining, r ∈ relations) :
    FlagsExact (release removed remaining tables) remaining := by
  rw [release_eq, flagsExact_mapColumns (released_id removed remaining)]
  intro t ht c hc
  have hflag := h t ht c hc
  by_cases hleft : ∃ r ∈ remaining, r.startsAt t.id c.id = true
  · -- The column is still in use, so it keeps the flag that it has.
    obtain ⟨r, hr, hstarts⟩ := hleft
    have hany : remaining.any (·.startsAt t.id c.id) = true :=
      List.any_eq_true.2 ⟨r, hr, hstarts⟩
    rw [released, hany, Bool.not_true, Bool.and_false, if_neg Bool.false_ne_true]
    exact iff_of_true (hflag.2 ⟨r, hremaining r hr, hstarts⟩) ⟨r, hr, hstarts⟩
  · have hnone : remaining.any (·.startsAt t.id c.id) = false := by
      rw [← Bool.not_eq_true, List.any_eq_true]
      exact hleft
    refine iff_of_false ?_ hleft
    rw [released, hnone, hnan t ht]
    by_cases hgone : removed.any (·.startsAt t.id c.id) = true
    · rw [hgone, if_pos (by simp)]
      exact Bool.false_ne_true
    · rw [Bool.not_eq_true] at hgone
      rw [hgone, if_neg (by simp)]
      intro htruthy
      obtain ⟨r, hr, hstarts⟩ := hflag.1 htruthy
      rcases hsplit r hr with hr | hr
      · rw [List.any_eq_false] at hgone
        exact hgone r hr hstarts
      · exact hleft ⟨r, hr, hstarts⟩

/-- What the first half of synchronising does to a column. -/
def unflagged (relations : List Relation) (t : Value) (c : Column) : Column :=
  if c.isForeignKey.isTruthy && !relations.any (·.startsAt t c.id) then cleared c else c

theorem sync_eq :
    sync relations tables = mark relations (mapColumns (unflagged relations) tables) := rfl

theorem unflagged_id (relations : List Relation) (t : Value) (c : Column) :
    (unflagged relations t c).id = c.id := by
  rw [unflagged]
  split <;> rfl

theorem shape_sync : (sync relations tables).map Table.shape = tables.map Table.shape := by
  rw [sync_eq, shape_mark, shape_mapColumns (unflagged_id relations)]

/-- The column after synchronising. -/
def synced (relations : List Relation) (t : Value) (c : Column) : Column :=
  marked relations t (unflagged relations t c)

theorem synced_id (relations : List Relation) (t : Value) (c : Column) :
    (synced relations t c).id = c.id := by
  rw [synced, marked_id, unflagged_id]

theorem sync_eq_mapColumns : sync relations tables = mapColumns (synced relations) tables := by
  rw [sync_eq, mark_eq, mapColumns, mapColumns, mapColumns, List.map_map]
  refine List.map_congr_left fun t _ => ?_
  simp [synced]

/-- Synchronising makes the flags exact. -/
theorem sync_exact : FlagsExact (sync relations tables) relations := by
  rw [sync_eq_mapColumns, flagsExact_mapColumns (synced_id relations)]
  intro t _ c _
  rw [synced, marked_isTruthy, unflagged_id, or_iff_right_iff_imp]
  -- a flag without a relation was taken away in the first half
  intro htruthy
  by_contra hnone
  have hany : relations.any (·.startsAt t.id c.id) = false := by
    rw [← Bool.not_eq_true, List.any_eq_true]
    exact hnone
  rw [unflagged, hany, Bool.not_false, Bool.and_true] at htruthy
  split at htruthy
  · exact Bool.false_ne_true htruthy
  · next hflag => exact hflag htruthy

/-! ## Without the marks -/

theorem cleared_marked (relations : List Relation) (t : Value) (c : Column) :
    cleared (marked relations t c) = cleared c := by
  rw [marked]
  cases lastFrom? relations t c.id with
  | none => rfl
  | some r =>
      simp only [flagged]
      split <;> rfl

theorem cleared_unflagged (relations : List Relation) (t : Value) (c : Column) :
    cleared (unflagged relations t c) = cleared c := by
  rw [unflagged]
  split <;> rfl

theorem cleared_synced (relations : List Relation) (t : Value) (c : Column) :
    cleared (synced relations t c) = cleared c := by
  rw [synced, cleared_marked, cleared_unflagged]

end Flags

/-- A table without the marks of foreign keys on its columns. -/
def Table.bare (t : Table) : Table :=
  { t with columns := t.columns.map Flags.cleared }

/-- Changing marks makes no difference without them. -/
theorem bare_decorate {change : Value → Column → Column}
    (h : ∀ t c, Flags.cleared (change t c) = Flags.cleared c) (t : Table) :
    (decorate change t).bare = t.bare := by
  rw [decorate, Table.bare, Table.bare]
  simp only [List.map_map, Function.comp_def, h]

/-! ## Exact flags of parts -/

section Parts

variable {tables tables' : List Table} {relations relations' : List Relation}

theorem FlagsExact.nil : FlagsExact [] relations := by
  intro t ht
  exact absurd ht List.not_mem_nil

/-- Tables and columns may be taken away, and columns may change in everything but their identifiers
and flags. -/
theorem FlagsExact.mono (h : FlagsExact tables relations)
    (hsub : ∀ t ∈ tables', ∃ u ∈ tables, t.id = u.id ∧ ∀ c ∈ t.columns,
      ∃ d ∈ u.columns, c.id = d.id ∧ c.isForeignKey = d.isForeignKey) :
    FlagsExact tables' relations := by
  intro t ht c hc
  obtain ⟨u, hu, hid, hcolumns⟩ := hsub t ht
  obtain ⟨d, hd, hcid, hflag⟩ := hcolumns c hc
  rw [hid, hcid, hflag]
  exact h u hu d hd

/-- Relations start at tables of their own, so at none that differs from all of these. -/
theorem startsAt_of_apart (hdiffer : ∀ t ∈ tables, ∀ u ∈ tables', t.id.canon ≠ u.id.canon)
    (hends : ∀ r ∈ relations', ∀ side, HasColumn tables' (r.tableId side) (r.columnId side)) :
    ∀ t ∈ tables, ∀ r ∈ relations', ∀ c, r.startsAt t.id c = false := by
  intro t ht r hr c
  rw [← Bool.not_eq_true, Relation.startsAt_iff]
  rintro ⟨htable, -⟩
  obtain ⟨u, hu, hid, -⟩ := hends r hr .source
  exact hdiffer t ht u hu (htable.symm.trans hid.symm)

/-- Tables whose relations stay among themselves can be put side by side. -/
theorem FlagsExact.append (h : FlagsExact tables relations) (h' : FlagsExact tables' relations')
    (hapart : ∀ t ∈ tables, ∀ r ∈ relations', ∀ c, r.startsAt t.id c = false)
    (hapart' : ∀ t ∈ tables', ∀ r ∈ relations, ∀ c, r.startsAt t.id c = false) :
    FlagsExact (tables ++ tables') (relations ++ relations') := by
  have hnone : ∀ {rs : List Relation} {t c : Value}, (∀ r ∈ rs, r.startsAt t c = false) →
      ¬∃ r ∈ rs, r.startsAt t c = true := by
    rintro rs t c hrs ⟨r, hr, hstarts⟩
    rw [hrs r hr] at hstarts
    contradiction
  intro t ht c hc
  rw [exists_mem_append]
  rcases List.mem_append.1 ht with ht | ht
  · rw [or_iff_left (hnone fun r hr => hapart t ht r hr c.id)]
    exact h t ht c hc
  · rw [or_iff_right (hnone fun r hr => hapart' t ht r hr c.id)]
    exact h' t ht c hc

end Parts

end SchemaDesk
