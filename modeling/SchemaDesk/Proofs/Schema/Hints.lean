import SchemaDesk.Proofs.Schema.Replaced
import SchemaDesk.Proofs.Schema.Settled

/-!
# References that relations account for

A column at which relations start repeats the target of one of them, so that it says by itself what
it refers to.  It has room for one target only.  When the relation that it repeats is removed and
another one still starts at it, the column keeps what it says, and if the two have different targets
it then repeats a relation that is gone.

So what a column repeats is accounted for by a relation that starts at it now, or by one that did so
beside a relation with another target (`MayRepeat`).  This file says how that fares under the
functions that bring flags in line.
-/

namespace SchemaDesk

/-- A column that repeats the target of a relation. -/
structure Column.Repeats (c : Column) (r : Relation) : Prop where
  table : c.referencesTableId = r.targetTableId
  column : c.referencesColumnId = r.targetColumnId

/-- Whether two relations have the same target. -/
def Relation.SameTarget (r r' : Relation) : Prop :=
  r.targetTableId = r'.targetTableId ∧ r.targetColumnId = r'.targetColumnId

/-- Whether both a relation and one with another target start at a column of a canvas. -/
def Snapshot.Shares (s : Snapshot) (t c : Value) (r : Relation) : Prop :=
  (r ∈ s.relations ∧ r.startsAt t c = true) ∧
    ∃ r' ∈ s.relations, r'.startsAt t c = true ∧ ¬r.SameTarget r'

/-- The relations that a column may repeat: those that start at it, and those that did so beside a
relation with another target, in one of the canvases shown before. -/
def MayRepeat (seen : List Snapshot) (relations : List Relation) (t c : Value) (r : Relation) :
    Prop :=
  (r ∈ relations ∧ r.startsAt t c = true) ∨ ∃ s ∈ seen, s.Shares t c r

/-- A column that is flagged and repeats a relation that it may repeat, or else says nothing of
foreign keys. -/
def Column.IsHinted (seen : List Snapshot) (relations : List Relation) (t : Value) (c : Column) :
    Prop :=
  (c.isForeignKey = .bool false ∧ c.referencesTableId = .null ∧ c.referencesColumnId = .null) ∨
    c.isForeignKey = .bool true ∧ ∃ r, MayRepeat seen relations t c.id r ∧ c.Repeats r

/-- Tables with such columns only. -/
def Hinted (seen : List Snapshot) (tables : List Table) (relations : List Relation) : Prop :=
  ∀ t ∈ tables, ∀ c ∈ t.columns, c.IsHinted seen relations t.id

section

variable {seen seen' : List Snapshot} {relations relations' : List Relation} {tables : List Table}
  {t : Value} {c : Column}

/-! ## Single columns -/

theorem MayRepeat.mono {r : Relation} {c : Value} (h : MayRepeat seen relations t c r)
    (hseen : seen ⊆ seen') (hrelations : relations ⊆ relations') :
    MayRepeat seen' relations' t c r :=
  h.imp (And.imp_left fun hr => hrelations hr) fun ⟨s, hs, hshares⟩ => ⟨s, hseen hs, hshares⟩

theorem Column.IsHinted.mono (h : c.IsHinted seen relations t) (hseen : seen ⊆ seen')
    (hrelations : relations ⊆ relations') : c.IsHinted seen' relations' t :=
  h.imp_right (And.imp_right fun ⟨r, hr, hrepeats⟩ => ⟨r, hr.mono hseen hrelations, hrepeats⟩)

/-- All that counts of a column is its identifier and what it says of foreign keys. -/
theorem Column.IsHinted.congr {d : Column} (h : c.IsHinted seen relations t) (hid : d.id = c.id)
    (hflag : d.isForeignKey = c.isForeignKey) (htable : d.referencesTableId = c.referencesTableId)
    (hcolumn : d.referencesColumnId = c.referencesColumnId) : d.IsHinted seen relations t := by
  rw [IsHinted, hid, hflag, htable, hcolumn]
  exact h.imp_right (And.imp_right fun ⟨r, hr, hrepeats⟩ =>
    ⟨r, hr, htable.trans hrepeats.table, hcolumn.trans hrepeats.column⟩)

theorem Column.isHinted_cleared : (Flags.cleared c).IsHinted seen relations t :=
  .inl ⟨rfl, rfl, rfl⟩

theorem Column.IsHinted.isSettled (h : c.IsHinted seen relations t) : c.IsSettled := by
  rcases h with ⟨hflag, htable, hcolumn⟩ | ⟨hflag, -⟩
  · exact .inr (Flags.cleared_eq hflag htable hcolumn)
  · exact .inl hflag

/-- A column that repeats a relation which starts at it. -/
theorem Column.isHinted_of_mem {r : Relation} (hr : r ∈ relations)
    (hstarts : r.startsAt t c.id = true) :
    ({ c with
        isForeignKey := true, referencesTableId := r.targetTableId,
        referencesColumnId := r.targetColumnId } : Column).IsHinted seen relations t :=
  .inr ⟨rfl, r, .inl ⟨hr, hstarts⟩, rfl, rfl⟩

/-- A column that said nothing of foreign keys before it was marked. -/
theorem Flags.isHinted_hinted (h : cleared c = c) :
    (hinted relations t c).IsHinted seen relations t := by
  rw [hinted]
  cases hlast : lastFrom? relations t c.id with
  | some r =>
      obtain ⟨hr, hstarts⟩ := lastFrom?_eq_some hlast
      exact Column.isHinted_of_mem hr hstarts
  | none =>
      rw [← h]
      exact Column.isHinted_cleared

/-- Marking adds the relation that it marks for to those that account for the column. -/
theorem Flags.isHinted_marked {added : List Relation} (htext : HasTextTargets added)
    (h : c.IsHinted seen relations t) :
    (marked added t c).IsHinted seen (relations ++ added) t := by
  rw [marked]
  cases hlast : lastFrom? added t c.id with
  | some r =>
      obtain ⟨hr, hstarts⟩ := lastFrom?_eq_some hlast
      show (flagged r c).IsHinted seen (relations ++ added) t
      rw [flagged_of_settled (htext r hr) h.isSettled]
      exact Column.isHinted_of_mem (List.mem_append_right _ hr) hstarts
  | none => exact h.mono (List.Subset.refl _) (List.subset_append_left _ _)

/-- When relations are removed, a column that goes on being a foreign key either repeats one that is
left, or two relations with different targets have started at it until now. -/
theorem Flags.isHinted_released {s : Snapshot} {removed remaining : List Relation}
    (h : c.IsHinted seen s.relations t) (hs : s ∈ seen) (ht : t.isNan = false)
    (hsplit : ∀ r ∈ s.relations, r ∈ removed ∨ r ∈ remaining)
    (hremaining : remaining ⊆ s.relations) :
    (released removed remaining t c).IsHinted seen remaining t := by
  by_cases hcleared : (!t.isNan && removed.any (·.startsAt t c.id) &&
      !remaining.any (·.startsAt t c.id)) = true
  · rw [released, if_pos hcleared]
    exact Column.isHinted_cleared
  rw [released, if_neg hcleared]
  rcases h with hplain | ⟨hflag, r, ⟨hr, hstarts⟩ | hshared, hrepeats⟩
  · exact .inl hplain
  · refine .inr ⟨hflag, ?_⟩
    rcases hsplit r hr with hgone | hleft
    · have hany : removed.any (·.startsAt t c.id) = true := List.any_eq_true.2 ⟨r, hgone, hstarts⟩
      rw [ht, hany, Bool.not_false, Bool.true_and, Bool.true_and, Bool.not_eq_true',
        Bool.not_eq_false, List.any_eq_true] at hcleared
      obtain ⟨r', hr', hstarts'⟩ := hcleared
      by_cases hsame : r.SameTarget r'
      · exact ⟨r', .inl ⟨hr', hstarts'⟩, hrepeats.table.trans hsame.1,
          hrepeats.column.trans hsame.2⟩
      · -- the relation that the column repeats is gone, and another one is left
        exact ⟨r, .inr ⟨s, hs, ⟨hr, hstarts⟩, r', hremaining hr', hstarts', hsame⟩, hrepeats⟩
    · exact ⟨r, .inl ⟨hleft, hstarts⟩, hrepeats⟩
  · exact .inr ⟨hflag, r, .inr hshared, hrepeats⟩

/-! ## Tables -/

theorem Hinted.nil : Hinted seen [] relations :=
  List.forall_mem_nil _

theorem Hinted.mono (h : Hinted seen tables relations) (hseen : seen ⊆ seen')
    (hrelations : relations ⊆ relations') : Hinted seen' tables relations' :=
  fun t ht c hc => (h t ht c hc).mono hseen hrelations

theorem Hinted.append {tables' : List Table} (h : Hinted seen tables relations)
    (h' : Hinted seen tables' relations') :
    Hinted seen (tables ++ tables') (relations ++ relations') := by
  intro t ht
  rcases List.mem_append.1 ht with ht | ht
  · exact h.mono (List.Subset.refl _) (List.subset_append_left _ _) t ht
  · exact h'.mono (List.Subset.refl _) (List.subset_append_right _ _) t ht

theorem Hinted.replace (h : Hinted seen tables relations) {t' : Table}
    (ht' : ∀ c ∈ t'.columns, c.IsHinted seen relations t'.id) :
    Hinted seen (replaceTable tables t') relations := by
  intro t ht
  rcases mem_replaceTable ht with rfl | ht
  · exact ht'
  · exact h t ht

/-- A change of columns that keeps their identifiers. -/
theorem hinted_mapColumns {change : Value → Column → Column}
    (h : ∀ t ∈ tables, ∀ c ∈ t.columns, (change t.id c).IsHinted seen relations t.id) :
    Hinted seen (Flags.mapColumns change tables) relations := by
  intro u hu d hd
  obtain ⟨t, ht, rfl⟩ := Flags.mem_mapColumns.1 hu
  obtain ⟨c, hc, rfl⟩ := List.mem_map.1 hd
  exact h t ht c hc

theorem Hinted.mark {added : List Relation} (h : Hinted seen tables relations)
    (htext : Flags.HasTextTargets added) :
    Hinted seen (Flags.mark added tables) (relations ++ added) := by
  rw [Flags.mark_eq]
  exact hinted_mapColumns fun t ht c hc => Flags.isHinted_marked htext (h t ht c hc)

theorem Hinted.release {s : Snapshot} {removed remaining : List Relation}
    (h : Hinted seen tables s.relations) (hs : s ∈ seen) (hfound : ∀ t ∈ tables, t.id.isNan = false)
    (hsplit : ∀ r ∈ s.relations, r ∈ removed ∨ r ∈ remaining)
    (hremaining : remaining ⊆ s.relations) :
    Hinted seen (Flags.release removed remaining tables) remaining := by
  rw [Flags.release_eq]
  exact hinted_mapColumns fun t ht c hc =>
    Flags.isHinted_released (h t ht c hc) hs (hfound t ht) hsplit hremaining

end

end SchemaDesk
