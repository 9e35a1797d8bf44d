import SchemaDesk.Ident
import SchemaDesk.Schema.Integrity
import SchemaDesk.Schema.Lookup
import SchemaDesk.Value.Number

/-!
# Edits of a project

An `Edit` either fails, or gives an answer and, if anything is to change, the project that takes the
place of the old one.  An edit that fails changes nothing but the supply of identifiers.

This module holds the checks that edits make of what they are given, and the edits of the project
itself.
-/

namespace SchemaDesk

/-- An edit with an answer; no project means that nothing changes. -/
abbrev Edit (α : Type) := Project → Minting (α × Option Project)

namespace Edit

/-! ## Checks -/

/-- A name, trimmed; only text that is not blank is one. -/
def name (v : Value) (place : Place) : Except Failure Text :=
  match v with
  | .str s =>
      let clean := s.trim
      if clean.isEmpty then .error (.problem (.nameRequired place)) else .ok clean
  | _ => .error (.problem (.nameRequired place))

/-- Fails unless a patch names allowed fields only. -/
def checkFields (patch : Patch) (allowed : List Text) (place : Place) : Except Failure Unit :=
  let unknown := (patch.map Prod.fst).filter fun key => !allowed.contains key
  require unknown.isEmpty (.unsupportedFields place unknown allowed)

/-- Fails if a patch repeats what an edit is given by itself. -/
def refuseArguments (arguments : List Text) (patch : Patch) : Except Failure Unit :=
  if patch.any fun entry => arguments.contains entry.1 then .error .wrongType else .ok ()

/-- Fails unless a value is one of the names of a choice. -/
def checkChoice (v : Value) (choice : Choice) (place : Place) : Except Failure Unit :=
  require (choice.admits v) (.unsupportedChoice place choice v)

/-- The names of fields without some of them. -/
def fieldsWithout {ρ : Type} (fields : List (Field ρ)) (excluded : List Text) : List Text :=
  (Field.names fields).filter fun name => !excluded.contains name

/-- The patch with the name in it trimmed, if it has one. -/
def withName (patch : Patch) (place : Place) : Except Failure Patch :=
  patch.mapM fun (key, v) =>
    if key = "name" then (name v place).map fun clean => (key, Value.str clean)
    else .ok (key, v)

/-! ## The project itself -/

/-- Names the project. -/
def setProjectName (v : Value) : Edit Unit := fun p => do
  let clean ← ofExcept (name v .projectName)
  pure ((), some { p with name := clean })

/-- Chooses the engine of the project. -/
def setEngine (v : Value) : Edit Unit := fun p => do
  ofExcept (checkChoice v .engine .projectEngine)
  pure ((), some { p with database := v })

/-- The part of a value at a position: an item of a list or a character of a text. -/
def partAt (v : Value) (position : Nat) : Except Failure Value :=
  match v with
  | .object _ => .error .noSuchEntry
  | _ =>
      match v.elements? with
      | none => .error .wrongType
      | some parts =>
          match parts[position]? with
          | some part => .ok part
          | none => .error .noSuchItem

/-- The floating-point number at a position. -/
def numberAt (v : Value) (position : Nat) : Except Failure Value := do
  let part ← partAt v position
  let x ← part.toBinary64
  .ok (.float x)

/-- Sets how the canvas is viewed. -/
def setViewport (zoom pan : Value) : Edit Unit := fun p => do
  let notPositive ← ofExcept zoom.isNotPositive
  ofExcept (require (!notPositive) .zoomNotPositive)
  let zoom ← ofExcept zoom.toBinary64
  let x ← ofExcept (numberAt pan 0)
  let y ← ofExcept (numberAt pan 1)
  pure ((), some { p with zoom := .float zoom, pan := [x, y] })

/-- Starts over with an empty project. -/
def reset (name database : Value) : Edit Unit := fun _ => do
  let id ← mint
  pure ((), some { id := id, name, database })

/-- Puts the entities of a snapshot back. -/
def restore (s : Snapshot) : Edit Unit := fun p =>
  pure ((), some (p.withSnapshot s))

/-- Takes another project, which has to be sound. -/
def load (q : Project) : Edit Unit := fun _ => do
  ofExcept q.checkIntegrity
  pure ((), some q)

end Edit

end SchemaDesk
