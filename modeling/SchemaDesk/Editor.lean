import SchemaDesk.Problem.Basic
import SchemaDesk.Text.Blank
import SchemaDesk.Value.Number

/-!
# The debounced SQL editor

What is typed into the editor is passed on only after a pause.  Every change cancels the pending
timer and sets a new one; when a timer fires, the text of that moment is passed on, unless it is
blank.  Any value can be put in the place of the text, but only a text can be passed on.

Timers are numbered from one.  A timer service may hand out no handles: then a timer cannot be
cancelled, and nothing counts as pending.
-/

namespace SchemaDesk

/-- The timers of a service: how many were set, those alive with their delays, and the handles
cancelled so far. -/
structure Timers where
  issued : Nat := 0
  alive : List (Nat × Int) := []
  cancelled : List Nat := []
  deriving DecidableEq, Repr

namespace Timers

/-- Sets a timer. -/
def set (t : Timers) (delay : Int) : Nat × Timers :=
  let handle := t.issued + 1
  (handle, { t with issued := handle, alive := t.alive ++ [(handle, delay)] })

/-- Cancels a timer. -/
def cancel (t : Timers) (handle : Nat) : Timers :=
  { t with
    alive := t.alive.filter (·.1 ≠ handle)
    cancelled := t.cancelled ++ [handle] }

/-- Takes all timers away. -/
def takeAll (t : Timers) : List (Nat × Int) × Timers :=
  (t.alive, { t with alive := [] })

end Timers

/-- An editor and the timer service it uses. -/
structure Editor where
  delay : Int
  handsOut : Bool := true
  text : Value := ""
  pending? : Option Nat := none
  timers : Timers := {}
  deriving DecidableEq, Repr

namespace Editor

/-- The delay of an editor that is not told one. -/
def defaultDelay : Int := 800

/-- An editor with a given delay, in milliseconds; a negative one counts as none. -/
def ofDelay (delay : Value) (handsOut : Bool) : Except Failure Editor := do
  let n ← delay.toInteger
  .ok { delay := max 0 n, handsOut }

/-- An editor on a widget, which has to be able to set and to cancel timers. -/
def ofWidget (setsTimers cancelsTimers : Bool) (delay : Value) (handsOut : Bool) :
    Except Failure Editor :=
  if setsTimers && cancelsTimers then ofDelay delay handsOut
  else .error (.problem .timersMissing)

/-- Whether a timer is pending. -/
def isPending (e : Editor) : Bool :=
  e.pending?.isSome

/-- Cancels the pending timer. -/
def cancel (e : Editor) : Editor :=
  match e.pending? with
  | some handle => { e with timers := e.timers.cancel handle, pending? := none }
  | none => e

/-- Takes a new text and sets the timer anew. -/
def type (e : Editor) (text : Value) : Editor :=
  let e := { e with text }.cancel
  let (handle, timers) := e.timers.set e.delay
  { e with timers, pending? := if e.handsOut then some handle else none }

/-- Passes the text on, unless it is blank. -/
def emit (e : Editor) : Except Failure (List Text) × Editor :=
  let emitted := match e.text with
    | .str t => .ok (if t.isBlankText then [] else [t])
    | _ => .error .notText
  (emitted, { e with pending? := none })

/-- Passes the text on at once, if a timer is pending. -/
def flush (e : Editor) : Except Failure (List Text) × Editor :=
  if e.isPending then e.cancel.emit else (.ok [], e)

/-- Passes the text on once for each of some timers. -/
def emitFor : List (Nat × Int) → Editor → Except Failure (List Text) × Editor
  | [], e => (.ok [], e)
  | _ :: rest, e =>
      match e.emit with
      | (.error failure, e) => (.error failure, e)
      | (.ok first, e) =>
          let (more, e) := emitFor rest e
          (more.map (first ++ ·), e)

/-- Lets all timers fire, in the order they were set. -/
def fire (e : Editor) : Except Failure (List Text) × Editor :=
  let (fired, timers) := e.timers.takeAll
  emitFor fired { e with timers }

end Editor

end SchemaDesk
