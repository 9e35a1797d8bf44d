import SchemaDesk.Problem.Basic
import SchemaDesk.Schema.Records
import SchemaDesk.Value.Number

/-!
# The undo history

A bounded timeline of snapshots with a cursor.  `past` runs from the oldest to the newest and ends
with the current state; `future` holds the states that were undone, the next to be redone first.  A
snapshot that shows the same canvas as the current state is not recorded.  When the past grows
beyond the limit its oldest entries are dropped.
-/

namespace SchemaDesk

/-- A timeline of at least one entry, once something has been recorded. -/
structure History where
  limit : Nat
  past : List Snapshot := []
  future : List Snapshot := []
  limit_pos : 0 < limit
  deriving DecidableEq

namespace History

/-- An empty history of a given limit, which has to be a positive number; a truth value is none. -/
def ofLimit (limit : Value) : Except Failure History := do
  match limit with
  | .bool _ => .error (.problem .historyTooShort)
  | _ =>
      let n ← limit.toInteger
      if h : 0 < n.toNat then .ok { limit := n.toNat, limit_pos := h }
      else .error (.problem .historyTooShort)

/-- The current state. -/
def current? (h : History) : Option Snapshot :=
  h.past.getLast?

/-- Whether there is a state before the current one. -/
def canUndo (h : History) : Bool :=
  1 < h.past.length

/-- Whether a state was undone. -/
def canRedo (h : History) : Bool :=
  !h.future.isEmpty

/-- The last entries of a list. -/
def lastEntries (n : Nat) (past : List Snapshot) : List Snapshot :=
  past.drop (past.length - n)

/-- Whether a snapshot shows the current canvas. -/
def shows (h : History) (s : Snapshot) : Bool :=
  match h.current? with
  | some c => c.same s
  | none => false

/-- Records a snapshot, unless it shows the current canvas; the flag tells whether it was recorded.
What was undone before is forgotten. -/
def push (h : History) (s : Snapshot) : Bool × History :=
  if h.shows s then (false, h)
  else (true, { h with past := lastEntries h.limit (h.past ++ [s]), future := [] })

/-- Goes back to the state before the current one, if there is one. -/
def undo (h : History) : Option Snapshot × History :=
  if h.canUndo then
    let past := h.past.dropLast
    (past.getLast?, { h with past, future := h.current?.toList ++ h.future })
  else (none, h)

/-- Goes forward to the state undone last, if there is one. -/
def redo (h : History) : Option Snapshot × History :=
  match h.future with
  | [] => (none, h)
  | s :: future => (some s, { h with past := h.past ++ [s], future })

/-- Forgets everything. -/
def clear (h : History) : History :=
  { h with past := [], future := [] }

end History

end SchemaDesk
