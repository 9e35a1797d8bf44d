import SchemaDesk.Proofs.Schema.Flagged

/-!
# Marks that are brought in line again

Synchronising goes by the relations, so doing it twice is doing it once (`Flags.synced_synced`).
How much is left of a column's old marks depends on what they were: of a column that is marked as a
foreign key or says nothing of foreign keys at all, nothing is (`Flags.synced_of_settled`).  What a
text declares is of this kind.
-/

namespace SchemaDesk

/-- A column that is marked as a foreign key, or says nothing of foreign keys at all. -/
def Column.IsSettled (c : Column) : Prop :=
  c.isForeignKey = .bool true ∨ Flags.cleared c = c

namespace Flags

/-- A column that says nothing of foreign keys has no mark to clear. -/
theorem cleared_eq {c : Column} (hflag : c.isForeignKey = .bool false)
    (htable : c.referencesTableId = .null) (hcolumn : c.referencesColumnId = .null) :
    cleared c = c := by
  cases c
  cases hflag
  cases htable
  cases hcolumn
  rfl

/-- Relations whose targets are text. -/
def HasTextTargets (relations : List Relation) : Prop :=
  ∀ r ∈ relations, (∃ s, r.targetTableId = .str s) ∧ ∃ s, r.targetColumnId = .str s

variable {relations : List Relation} {t : Value} {c : Column}

theorem unflagged_of_some {r : Relation} (h : lastFrom? relations t c.id = some r) :
    unflagged relations t c = c := by
  have hany : relations.any (·.startsAt t c.id) = true :=
    List.any_eq_true.2 ⟨r, lastFrom?_eq_some h⟩
  rw [unflagged, hany, Bool.not_true, Bool.and_false, if_neg Bool.false_ne_true]

theorem unflagged_of_none (h : lastFrom? relations t c.id = none) :
    unflagged relations t c = if c.isForeignKey.isTruthy then cleared c else c := by
  have hany : relations.any (·.startsAt t c.id) = false := by
    rw [← Bool.not_eq_true, List.any_eq_true]
    rintro ⟨r, hr, hstarts⟩
    rw [lastFrom?_eq_none.1 h r hr] at hstarts
    contradiction
  rw [unflagged, hany, Bool.not_false, Bool.and_true]

theorem synced_of_some {r : Relation} (h : lastFrom? relations t c.id = some r) :
    synced relations t c = flagged r c := by
  rw [synced, unflagged_of_some h, marked, h]

theorem synced_of_none (h : lastFrom? relations t c.id = none) :
    synced relations t c = if c.isForeignKey.isTruthy then cleared c else c := by
  rw [synced, marked, unflagged_id, h, unflagged_of_none h]

/-- Whether a column is flagged already for a relation whose target is text. -/
theorem flagged_again {r : Relation}
    (h : (∃ s, r.targetTableId = .str s) ∧ ∃ s, r.targetColumnId = .str s) (c : Column) :
    flagged r (flagged r c) = flagged r c := by
  obtain ⟨⟨i, hi⟩, j, hj⟩ := h
  by_cases hflagged : c.isForeignKey.isTruthy && c.referencesTableId.equals r.targetTableId &&
      c.referencesColumnId.equals r.targetColumnId
  · have hsame : flagged r c = c := if_pos hflagged
    rw [hsame, hsame]
  · have hnew : flagged r c =
        { c with
          isForeignKey := true, referencesTableId := r.targetTableId,
          referencesColumnId := r.targetColumnId } := if_neg hflagged
    rw [hnew, flagged, hi, hj]
    exact if_pos (by simp [Value.isTruthy])

/-- After synchronising, the reference of a column is what it was, the target of a relation, or
nothing. -/
theorem synced_references {P : Value → Prop} (hnull : P .null)
    (hc : P c.referencesTableId ∧ P c.referencesColumnId)
    (hrelations : ∀ r ∈ relations, P r.targetTableId ∧ P r.targetColumnId) :
    P (synced relations t c).referencesTableId ∧ P (synced relations t c).referencesColumnId := by
  cases h : lastFrom? relations t c.id with
  | some r =>
      rw [synced_of_some h, flagged]
      split
      · exact hc
      · exact hrelations r (lastFrom?_eq_some h).1
  | none =>
      rw [synced_of_none h]
      split
      · exact ⟨hnull, hnull⟩
      · exact hc

/-- Synchronising twice is synchronising once. -/
theorem synced_synced (hrelations : HasTextTargets relations) (t : Value) (c : Column) :
    synced relations t (synced relations t c) = synced relations t c := by
  cases h : lastFrom? relations t c.id with
  | some r =>
      have hid : lastFrom? relations t (flagged r c).id = some r := by
        rw [flagged_id]
        exact h
      rw [synced_of_some h, synced_of_some hid]
      exact flagged_again (hrelations r (lastFrom?_eq_some h).1) c
  | none =>
      rw [synced_of_none h]
      by_cases htruthy : c.isForeignKey.isTruthy = true
      · have hid : lastFrom? relations t (cleared c).id = none := h
        rw [if_pos htruthy, synced_of_none hid]
        exact if_neg Bool.false_ne_true
      · rw [if_neg htruthy, synced_of_none h, if_neg htruthy]

/-- A settled column gets the mark of a relation whole, also if it is not changed. -/
theorem flagged_of_settled {r : Relation}
    (h : (∃ s, r.targetTableId = .str s) ∧ ∃ s, r.targetColumnId = .str s) (hc : c.IsSettled) :
    flagged r c =
      { c with
        isForeignKey := true, referencesTableId := r.targetTableId,
        referencesColumnId := r.targetColumnId } := by
  obtain ⟨⟨i, hi⟩, j, hj⟩ := h
  rw [flagged]
  split
  · next hsame =>
      rw [Bool.and_eq_true, Bool.and_eq_true, hi, hj] at hsame
      obtain ⟨⟨htruthy, htable⟩, hcolumn⟩ := hsame
      have htable := Value.canon_of_equals htable
      have hcolumn := Value.canon_of_equals hcolumn
      rw [Value.canon_str] at htable hcolumn
      have hflag : c.isForeignKey = .bool true := by
        rcases hc with hflag | hcleared
        · exact hflag
        · rw [← hcleared] at htruthy
          cases htruthy
      rw [hi, hj, ← Value.eq_str_of_canon htable, ← Value.eq_str_of_canon hcolumn, ← hflag]
  · rfl

/-- After synchronising, a settled column is flagged exactly if a relation starts at it. -/
theorem synced_isForeignKey (hc : c.IsSettled) :
    (synced relations t c).isForeignKey = .bool (lastFrom? relations t c.id).isSome := by
  have hflag : c.isForeignKey = .bool c.isForeignKey.isTruthy := by
    rcases hc with hflag | hcleared
    · rw [hflag]
      rfl
    · rw [← hcleared]
      rfl
  cases h : lastFrom? relations t c.id with
  | some r =>
      rw [synced_of_some h, flagged]
      split
      · next hsame =>
          rw [Bool.and_eq_true, Bool.and_eq_true] at hsame
          rw [hflag, hsame.1.1]
          rfl
      · rfl
  | none =>
      rw [synced_of_none h]
      split
      · rfl
      · next huntrue =>
          rw [hflag, eq_false_of_ne_true huntrue]
          rfl

/-- Synchronising leaves nothing of the old marks of a column that is settled. -/
theorem synced_of_settled (hrelations : HasTextTargets relations) (hc : c.IsSettled) :
    synced relations t c = hinted relations t (cleared c) := by
  cases h : lastFrom? relations t c.id with
  | some r =>
      have hhint : hinted relations t (cleared c) =
          { c with
            isForeignKey := true, referencesTableId := r.targetTableId,
            referencesColumnId := r.targetColumnId } := by
        rw [hinted, show lastFrom? relations t (cleared c).id = some r from h]
        rfl
      rw [synced_of_some h, hhint, flagged_of_settled (hrelations r (lastFrom?_eq_some h).1) hc]
  | none =>
      have hhint : hinted relations t (cleared c) = cleared c := by
        rw [hinted, show lastFrom? relations t (cleared c).id = none from h]
      rw [synced_of_none h, hhint]
      rcases hc with hflag | hcleared
      · rw [hflag]
        rfl
      · rw [hcleared, ite_self]

end Flags

end SchemaDesk
