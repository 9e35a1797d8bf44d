import Mathlib.Data.List.Chain
import SchemaDesk.Proofs.History

/-!
# A history is a bounded timeline with a cursor

Whatever is pushed, undone, redone and cleared, and in whatever order, a history stays in order
(`History.InOrder`): it holds no more entries than its limit, no two neighbours among them show the
same canvas, and nothing lies in the future of an empty past.  Redoing does not look at the limit;
that it keeps it is due to the past and the future sharing the limit between them.

While nothing but pushes happen, the past consists of the last entries of all that was accepted
(`History.past_pushAll`), so that undoing goes through what was accepted from the newest to the
oldest.
-/

namespace SchemaDesk

namespace History

variable {h : History} {s : Snapshot}

/-! ## The last entries -/

/-- As many entries are kept as there is room for. -/
theorem length_lastEntries (n : Nat) (past : List Snapshot) :
    (lastEntries n past).length = min n past.length := by
  rw [lastEntries, List.length_drop]
  omega

theorem lastEntries_suffix (n : Nat) (past : List Snapshot) : lastEntries n past <:+ past :=
  List.drop_suffix _ _

/-- From the newest to the oldest, the entries kept are the first ones. -/
theorem reverse_lastEntries (n : Nat) (past : List Snapshot) :
    (lastEntries n past).reverse = past.reverse.take n := by
  rw [lastEntries, List.reverse_drop, List.take_eq_take_iff, List.length_reverse]
  omega

/-- What was dropped before would be dropped afterwards, too. -/
theorem lastEntries_lastEntries_append (n : Nat) (past more : List Snapshot) :
    lastEntries n (lastEntries n past ++ more) = lastEntries n (past ++ more) := by
  have hkept := length_lastEntries n past
  rw [lastEntries, List.length_append, hkept, lastEntries,
    ← List.drop_append_of_le_length (Nat.sub_le _ _), List.drop_drop, lastEntries,
    List.length_append]
  congr 1
  omega

/-! ## What every step keeps -/

/-- What a history can be asked for. -/
inductive Step where
  | push (s : Snapshot)
  | undo
  | redo
  | clear

/-- The history after a step, which may have changed nothing. -/
def after (h : History) : Step → History
  | .push s => (h.push s).2
  | .undo => h.undo.2
  | .redo => h.redo.2
  | .clear => h.clear

/-- The history after several steps. -/
def run (h : History) (steps : List Step) : History :=
  steps.foldl after h

/-- A history within its limit, without repetitions and with a current entry if there is any. -/
structure InOrder (h : History) : Prop where
  bounded : h.entries.length ≤ h.limit
  distinct : h.entries.IsChain fun a b => a.same b = false
  current : h.future ≠ [] → h.past ≠ []

/-- A history without entries is in order. -/
theorem inOrder_of_entries_eq_nil (hempty : h.entries = []) : h.InOrder where
  bounded := by
    rw [hempty]
    exact Nat.zero_le _
  distinct := by
    rw [hempty]
    exact .nil
  current := fun hfuture => absurd (List.append_eq_nil_iff.1 hempty).2 hfuture

theorem shows_eq_false_iff : h.shows s = false ↔ ∀ c ∈ h.current?, c.same s = false := by
  rw [shows]
  cases h.current? <;> simp

/-- An entry that is accepted becomes the neighbour of the current one only. -/
theorem InOrder.push (hh : h.InOrder) (s : Snapshot) : (h.push s).2.InOrder := by
  cases hs : h.shows s with
  | true =>
      rw [push_shown hs]
      exact hh
  | false =>
      rw [push_new hs]
      have hpast : h.past.IsChain fun a b => a.same b = false := hh.distinct.left_of_append
      have hnew : (h.past ++ [s]).IsChain fun a b => a.same b = false := by
        refine List.isChain_append.2 ⟨hpast, .singleton s, fun c hc t ht => ?_⟩
        cases ht
        exact shows_eq_false_iff.1 hs c hc
      refine ⟨?_, ?_, fun hfuture => absurd rfl hfuture⟩
      · rw [entries, List.append_nil, length_lastEntries]
        exact Nat.min_le_left _ _
      · rw [entries, List.append_nil]
        exact hnew.suffix (lastEntries_suffix _ _)

@[simp] theorem limit_undo (h : History) : h.undo.2.limit = h.limit := by
  rw [undo]
  split <;> rfl

@[simp] theorem limit_redo (h : History) : h.redo.2.limit = h.limit := by
  rw [redo]
  split <;> rfl

@[simp] theorem limit_push (h : History) (s : Snapshot) : (h.push s).2.limit = h.limit := by
  rw [push]
  split <;> rfl

theorem InOrder.undo (hh : h.InOrder) : h.undo.2.InOrder where
  bounded := by
    rw [entries_undo, limit_undo]
    exact hh.bounded
  distinct := by
    rw [entries_undo]
    exact hh.distinct
  current := by
    cases hundo : h.canUndo with
    | false =>
        rw [undo_of_not_canUndo hundo]
        exact hh.current
    | true =>
        obtain ⟨c, -, hc⟩ := undo_current hundo
        exact fun _ => List.ne_nil_of_mem (List.mem_of_getLast? hc)

theorem InOrder.redo (hh : h.InOrder) : h.redo.2.InOrder where
  bounded := by
    rw [entries_redo, limit_redo]
    exact hh.bounded
  distinct := by
    rw [entries_redo]
    exact hh.distinct
  current := by
    cases hredo : h.redo.1 with
    | none =>
        rw [redo_of_none hredo]
        exact hh.current
    | some s => exact fun _ => List.ne_nil_of_mem (List.mem_of_getLast? (redo_current hredo))

/-- Every step keeps a history in order. -/
theorem InOrder.after (hh : h.InOrder) (step : Step) : (h.after step).InOrder := by
  cases step with
  | push s => exact hh.push s
  | undo => exact hh.undo
  | redo => exact hh.redo
  | clear => exact inOrder_of_entries_eq_nil rfl

/-- So does every run. -/
theorem InOrder.run (hh : h.InOrder) (steps : List Step) : (h.run steps).InOrder := by
  induction steps generalizing h with
  | nil => exact hh
  | cons step steps ih => exact ih (hh.after step)

@[simp] theorem limit_after (h : History) (step : Step) : (h.after step).limit = h.limit := by
  cases step with
  | push s => exact limit_push h s
  | undo => exact limit_undo h
  | redo => exact limit_redo h
  | clear => rfl

@[simp] theorem limit_run (h : History) (steps : List Step) : (h.run steps).limit = h.limit := by
  induction steps generalizing h with
  | nil => rfl
  | cons step steps ih => exact (ih _).trans (limit_after h step)

/-! ## Undoing what was redone -/

/-- Redoing takes back an undo that gave an entry. -/
theorem redo_of_undo (hs : h.undo.1 = some s) : h.undo.2.redo = (h.current?, h) := by
  refine redo_undo ?_
  cases hundo : h.canUndo with
  | true => rfl
  | false =>
      rw [undo_of_not_canUndo hundo] at hs
      cases hs

/-- Undoing takes back what redoing did, if there was a current entry to go back to; and there is
one in every history in order. -/
theorem InOrder.undo_of_redo (hh : h.InOrder) (hs : h.redo.1 = some s) :
    h.redo.2.undo = (h.current?, h) := by
  rw [History.redo] at hs ⊢
  cases hfuture : h.future with
  | nil =>
      rw [hfuture] at hs
      cases hs
  | cons t future =>
      have hpast : 0 < h.past.length :=
        List.length_pos_iff.2 (hh.current (hfuture ▸ List.cons_ne_nil t future))
      have hundo : 1 < (h.past ++ [t]).length := by
        rw [List.length_append, List.length_singleton]
        omega
      simp only [History.undo, canUndo, hundo, decide_true, if_true, current?,
        List.dropLast_concat, List.getLast?_concat, Option.toList_some, List.singleton_append,
        ← hfuture]

/-! ## Pushes alone -/

/-- The history after several pushes. -/
def pushAll (h : History) (ss : List Snapshot) : History :=
  ss.foldl (fun h s => (h.push s).2) h

/-- Those of several snapshots that are accepted when they are pushed. -/
def accepted : History → List Snapshot → List Snapshot
  | _, [] => []
  | h, s :: ss => (if (h.push s).1 then [s] else []) ++ accepted (h.push s).2 ss

/-- After several pushes the past consists of the last of all that were accepted. -/
theorem past_pushAll (hh : h.InOrder) (ss : List Snapshot) :
    (h.pushAll ss).past = lastEntries h.limit (h.past ++ h.accepted ss) := by
  induction ss generalizing h with
  | nil =>
      have hfits : h.past.length ≤ h.limit :=
        (List.length_append ▸ Nat.le_add_right _ _ : h.past.length ≤ h.entries.length).trans
          hh.bounded
      rw [accepted, List.append_nil, lastEntries, Nat.sub_eq_zero_of_le hfits, List.drop_zero]
      rfl
  | cons s ss ih =>
      have hrest := ih (hh.push s)
      rw [limit_push] at hrest
      rw [accepted]
      refine hrest.trans ?_
      cases hs : h.shows s with
      | true => simp only [push, hs, if_true, Bool.false_eq_true, if_false, List.nil_append]
      | false =>
          simp only [push, hs, Bool.false_eq_true, if_false, if_true,
            lastEntries_lastEntries_append, List.append_assoc]

/-! ## The laws of a timeline -/

/-- A number from one on is a limit. -/
theorem ofLimit_of_toInteger {limit : Value} {n : Nat} (hn : limit.toInteger = .ok n)
    (hpos : 1 ≤ n) (hnumber : ∀ b, limit ≠ .bool b) :
    ofLimit limit = .ok { limit := n, limit_pos := hpos } := by
  cases limit with
  | bool b => exact absurd rfl (hnumber b)
  | _ => exact Except.bind_eq_ok.2 ⟨n, hn, dif_pos (show 0 < (n : Int).toNat from hpos)⟩

/-- A history of any limit is a bounded timeline with a cursor.  After any run its entries are
within the limit, and neighbours are different.  Undoing and redoing move the cursor among the same
entries and take back each other.  A push is rejected exactly if it repeats the current canvas, and
then it changes nothing; one that is accepted forgets the future and drops the oldest entries that
there is no room for.  And after any pushes each further undo goes back to the snapshot that was
accepted one push earlier, as long as the past reaches. -/
theorem bounded_timeline_with_cursor {limit : Value} {n : Nat} (hn : limit.toInteger = .ok n)
    (hpos : 1 ≤ n) (hnumber : ∀ b, limit ≠ .bool b) :
    ∃ h₀, ofLimit limit = .ok h₀ ∧ ∀ steps h, h = h₀.run steps →
      (h.past.length + h.future.length ≤ n ∧
        (h.past ++ h.future).IsChain fun a b => a.same b = false) ∧
      (h.undo.2.past ++ h.undo.2.future = h.past ++ h.future ∧
        h.redo.2.past ++ h.redo.2.future = h.past ++ h.future) ∧
      (∀ s, h.undo.1 = some s → h.undo.2.redo = (h.current?, h)) ∧
      (∀ s, h.redo.1 = some s → h.redo.2.undo = (h.current?, h)) ∧
      (∀ s, (h.push s).1 = false ↔ ∃ c, h.current? = some c ∧ c.same s = true) ∧
      (∀ s, (h.push s).1 = false → (h.push s).2 = h) ∧
      (∀ s, (h.push s).1 = true →
        (h.push s).2.future = [] ∧ (h.push s).2.past <:+ h.past ++ [s] ∧
          (h.push s).2.past.length = min n (h.past.length + 1)) ∧
      ∀ ss k, k + 1 < (h.pushAll ss).past.length →
        (back^[k] (h.pushAll ss)).undo.1 = (h.past ++ h.accepted ss).reverse[k + 1]? := by
  refine ⟨_, ofLimit_of_toInteger hn hpos hnumber, fun steps h hrun => ?_⟩
  have hlimit : h.limit = n := by
    rw [hrun, limit_run]
  have hh : h.InOrder := by
    rw [hrun]
    exact (inOrder_of_entries_eq_nil rfl).run steps
  refine ⟨⟨?_, hh.distinct⟩, ⟨entries_undo h, entries_redo h⟩, fun s => redo_of_undo,
    fun s => hh.undo_of_redo, fun s => ?_, fun s hs => ?_, fun s hs => ?_, fun ss k hk => ?_⟩
  · rw [← hlimit, ← List.length_append]
    exact hh.bounded
  · rw [push_fst, Bool.not_eq_false', shows]
    cases h.current? <;> simp
  · rw [push_fst, Bool.not_eq_false'] at hs
    exact push_shown hs
  · rw [push_fst, Bool.not_eq_true'] at hs
    rw [push_new hs, ← hlimit]
    refine ⟨rfl, lastEntries_suffix _ _, ?_⟩
    rw [length_lastEntries, List.length_append, List.length_singleton]
  · rw [undo_back hk]
    rw [past_pushAll hh, length_lastEntries] at hk
    rw [past_pushAll hh, reverse_lastEntries, List.getElem?_take_of_lt (by omega)]

/-- With room for two of three canvases, the newest two are kept; undoing and redoing then go back
and forth between them. -/
theorem timeline_of_two_entries :
    ∃ h₀ : History, ∃ a b c : Snapshot, ofLimit (.int 2) = .ok h₀ ∧
      (h₀.pushAll [a, b, c]).past.length = 2 ∧
      (h₀.pushAll [a, b, c]).undo.1 = some b ∧
      (h₀.run [.push a, .push b, .push c, .undo]).redo.1 = some c ∧
      (h₀.run [.push a, .push b, .push c, .undo]).redo.2.undo =
        (some b, h₀.run [.push a, .push b, .push c, .undo]) := by
  obtain ⟨h₀, created, hlaws⟩ :=
    @bounded_timeline_with_cursor (.int 2) 2 rfl (by decide) (fun _ h => by cases h)
  cases created
  obtain ⟨-, -, -, -, -, -, -, hundos⟩ := hlaws [] _ rfl
  obtain ⟨-, -, -, hundo, -⟩ :=
    hlaws [.push {}, .push { notes := [{ id := "b" }] }, .push { notes := [{ id := "c" }] }, .undo]
      _ rfl
  refine ⟨_, {}, { notes := [{ id := "b" }] }, { notes := [{ id := "c" }] }, rfl,
    by decide +kernel, ?_, by decide +kernel, ?_⟩
  · exact (hundos _ 0 (by decide +kernel)).trans (by decide +kernel)
  · exact (hundo { notes := [{ id := "c" }] } (by decide +kernel)).trans (by decide +kernel)

end History

end SchemaDesk
