import Mathlib.Logic.Function.Iterate
import SchemaDesk.History
import SchemaDesk.Proofs.Schema.Sound

/-!
# Laws of undoing and redoing

How a history moves by itself, before anything is said of the canvas that it belongs to.  The entry
that an undo or a redo gives is the current one afterwards, and pushing it again changes nothing;
several undos are taken back by as many redos (`History.forth_back`); and undoing what was just
pushed gives the entry before it, unless the history has room for one entry only
(`History.undo_push`).

The past followed by the future is one list of entries, which undoing and redoing leave as it is:
they move only the place where the past ends.
-/

namespace SchemaDesk

namespace History

variable {h : History} {s t c : Snapshot}

theorem shows_of_current (hc : h.current? = some c) : h.shows s = c.same s := by
  rw [shows, hc]

/-- A canvas that is shown already is not recorded. -/
theorem push_shown (hs : h.shows s = true) : (h.push s).2 = h := by
  rw [push, if_pos hs]

/-- Exactly a canvas that is shown already is rejected. -/
theorem push_fst (h : History) (s : Snapshot) : (h.push s).1 = !h.shows s := by
  rw [push]
  cases h.shows s <;> rfl

theorem push_new (hs : h.shows s = false) :
    (h.push s).2 = { h with past := lastEntries h.limit (h.past ++ [s]), future := [] } := by
  rw [push, hs, if_neg Bool.false_ne_true]

/-- At least one entry is kept, and it is the newest. -/
theorem getLast?_lastEntries {n : Nat} (hn : 0 < n) (past : List Snapshot) :
    (lastEntries n (past ++ [s])).getLast? = some s := by
  have hdrop : (past ++ [s]).length - n ≤ past.length := by
    rw [List.length_append, List.length_singleton]
    omega
  rw [lastEntries, List.drop_append_of_le_length hdrop, List.getLast?_concat]

/-- Whatever is pushed is shown afterwards. -/
theorem shows_push (h : History) (s : Snapshot) : (h.push s).2.shows s = true := by
  cases hs : h.shows s with
  | true =>
      rw [push_shown hs]
      exact hs
  | false =>
      have hcurrent : (h.push s).2.current? = some s := by
        rw [push_new hs]
        exact getLast?_lastEntries h.limit_pos h.past
      rw [shows_of_current hcurrent, Snapshot.same_self]

/-- Undoing gives the entry before the current one, and that is then the current one. -/
theorem undo_current (hundo : h.canUndo = true) :
    ∃ c, h.undo.1 = some c ∧ h.undo.2.current? = some c := by
  rw [undo, if_pos hundo]
  have hlong : 1 < h.past.length := of_decide_eq_true hundo
  have hne : h.past.dropLast ≠ [] := by
    rw [← List.length_pos_iff, List.length_dropLast]
    omega
  exact ⟨_, List.getLast?_eq_some_getLast hne, List.getLast?_eq_some_getLast hne⟩

/-- Redoing gives an entry that is then the current one. -/
theorem redo_current (hs : h.redo.1 = some s) : h.redo.2.current? = some s := by
  rw [redo] at hs ⊢
  cases hfuture : h.future with
  | nil =>
      rw [hfuture] at hs
      cases hs
  | cons t future =>
      rw [hfuture] at hs
      cases hs
      exact List.getLast?_concat

theorem undo_of_not_canUndo (hundo : h.canUndo = false) : h.undo = (none, h) := by
  rw [undo, hundo, if_neg Bool.false_ne_true]

/-- Without an entry before the current one undoing changes nothing. -/
theorem undo_of_none (hs : h.undo.1 = none) : h.undo.2 = h := by
  cases hundo : h.canUndo with
  | false => rw [undo_of_not_canUndo hundo]
  | true =>
      obtain ⟨c, hc, -⟩ := undo_current hundo
      rw [hc] at hs
      cases hs

/-- Without an entry that was undone redoing changes nothing. -/
theorem redo_of_none (hs : h.redo.1 = none) : h.redo.2 = h := by
  rw [redo] at hs ⊢
  split at hs
  · rfl
  · cases hs

theorem undo_past (hundo : h.canUndo = true) : h.undo.2.past = h.past.dropLast := by
  rw [undo, if_pos hundo]

theorem current_of_canUndo (hundo : h.canUndo = true) : ∃ c, h.current? = some c := by
  have hlong : 1 < h.past.length := of_decide_eq_true hundo
  have hne : h.past ≠ [] := by
    rw [← List.length_pos_iff]
    omega
  exact ⟨_, List.getLast?_eq_some_getLast hne⟩

/-- Redoing takes back what undoing did, and gives what was current before. -/
theorem redo_undo (hundo : h.canUndo = true) : h.undo.2.redo = (h.current?, h) := by
  obtain ⟨c, hc⟩ := current_of_canUndo hundo
  rw [undo, if_pos hundo, hc, redo]
  simp only [Option.toList_some, List.singleton_append, List.dropLast_append_getLast? c hc]

/-! ## What a history holds -/

/-- All snapshots of a history. -/
def entries (h : History) : List Snapshot :=
  h.past ++ h.future

/-- A new history is empty. -/
theorem ofLimit_entries {limit : Value} (created : ofLimit limit = .ok h) : h.entries = [] := by
  unfold ofLimit at created
  split at created
  · cases created
  · obtain ⟨n, -, created⟩ := Except.bind_eq_ok.1 created
    split at created
    · cases created
      rfl
    · cases created

theorem entries_push (ht : t ∈ (h.push s).2.entries) : t ∈ h.entries ∨ t = s := by
  rw [push] at ht
  split at ht
  · exact .inl ht
  · rw [entries, List.append_nil, lastEntries] at ht
    rcases List.mem_append.1 (List.mem_of_mem_drop ht) with ht | ht
    · exact .inl (List.mem_append_left _ ht)
    · exact .inr (List.mem_singleton.1 ht)

/-- Undoing moves the current entry to the front of the future. -/
@[simp] theorem entries_undo (h : History) : h.undo.2.entries = h.entries := by
  cases hundo : h.canUndo with
  | false => rw [undo_of_not_canUndo hundo]
  | true =>
      obtain ⟨c, hc⟩ := current_of_canUndo hundo
      rw [undo, if_pos hundo, hc, entries, entries, Option.toList_some, ← List.append_assoc,
        List.dropLast_append_getLast? c hc]

/-- Redoing moves the front of the future to the end of the past. -/
@[simp] theorem entries_redo (h : History) : h.redo.2.entries = h.entries := by
  rw [redo]
  cases hfuture : h.future with
  | nil => rfl
  | cons s future => rw [entries, entries, hfuture, List.append_assoc, List.singleton_append]

theorem undo_mem (hs : h.undo.1 = some s) : s ∈ h.entries := by
  rw [undo] at hs
  split at hs
  · exact List.mem_append_left _ (List.dropLast_subset _ (List.mem_of_getLast? hs))
  · cases hs

theorem redo_mem (hs : h.redo.1 = some s) : s ∈ h.entries := by
  rw [← entries_redo]
  exact List.mem_append_left _ (List.mem_of_getLast? (redo_current hs))

/-! ## Several moves -/

/-- The history after an undo, whatever it gave. -/
def back (h : History) : History :=
  h.undo.2

/-- The history after a redo, whatever it gave. -/
def forth (h : History) : History :=
  h.redo.2

/-- Each of several undos takes one entry from the end of the past. -/
theorem past_back {k : Nat} (hk : k < h.past.length) :
    (back^[k] h).past = h.past.take (h.past.length - k) := by
  induction k with
  | zero => rw [Function.iterate_zero_apply, Nat.sub_zero, List.take_length]
  | succ k ih =>
      have hpast := ih (by omega)
      have hundo : (back^[k] h).canUndo = true := by
        rw [canUndo, hpast, List.length_take]
        exact decide_eq_true (by omega)
      rw [Function.iterate_succ_apply', back, undo_past hundo, hpast, List.dropLast_eq_take,
        List.length_take, List.take_take]
      congr 1
      omega

theorem canUndo_back {k : Nat} (hk : k + 1 < h.past.length) : (back^[k] h).canUndo = true := by
  rw [canUndo, past_back (by omega), List.length_take]
  exact decide_eq_true (by omega)

/-- Each further undo gives the entry of the past one place earlier. -/
theorem undo_back {k : Nat} (hk : k + 1 < h.past.length) :
    (back^[k] h).undo.1 = h.past.reverse[k + 1]? := by
  have hpast := past_back hk
  rw [Function.iterate_succ_apply', back, undo_past (canUndo_back hk)] at hpast
  rw [undo, if_pos (canUndo_back hk)]
  show (back^[k] h).past.dropLast.getLast? = _
  rw [hpast, List.getLast?_take, if_neg (by omega), List.getElem?_reverse hk]
  rw [List.getElem?_eq_getElem (by omega), Option.some_or, ← List.getElem?_eq_getElem]
  congr 1
  omega

/-- As many redos take back what several undos did. -/
theorem forth_back {k : Nat} (hk : k < h.past.length) : forth^[k] (back^[k] h) = h := by
  induction k with
  | zero => rfl
  | succ k ih =>
      -- the last undo and the first redo cancel
      rw [Function.iterate_succ_apply' back, Function.iterate_succ_apply, forth, back,
        redo_undo (canUndo_back hk)]
      exact ih (by omega)

/-- With room for two entries, undoing right after a new canvas was recorded gives the one that was
current before. -/
theorem undo_push (hc : h.current? = some c) (hs : h.shows s = false) (hlimit : 2 ≤ h.limit) :
    (h.push s).2.undo.1 = some c := by
  obtain ⟨earlier, hpast⟩ := List.getLast?_eq_some_iff.1 hc
  have hroom : (earlier ++ [c, s]).length - h.limit ≤ earlier.length := by
    simp only [List.length_append, List.length_cons, List.length_nil]
    omega
  -- trimming drops only entries before the one that was current
  have hnew : (h.push s).2.past =
      earlier.drop ((earlier ++ [c, s]).length - h.limit) ++ [c] ++ [s] := by
    have hall : h.past ++ [s] = earlier ++ [c, s] := by
      rw [hpast, List.append_assoc, List.singleton_append]
    rw [push_new hs]
    show lastEntries h.limit (h.past ++ [s]) = _
    rw [lastEntries, hall, List.drop_append_of_le_length hroom, List.append_assoc,
      List.singleton_append]
  have hundo : (h.push s).2.canUndo = true := by
    rw [canUndo, hnew]
    exact decide_eq_true (by simp)
  rw [undo, if_pos hundo]
  show (h.push s).2.past.dropLast.getLast? = some c
  rw [hnew, List.dropLast_concat, List.getLast?_concat]

end History

end SchemaDesk
