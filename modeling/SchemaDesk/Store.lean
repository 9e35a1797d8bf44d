import SchemaDesk.Edit.Command

/-!
# The store

The store holds the one project that is being edited, and is the only place where it changes.  An
edit either replaces the whole project in one step or leaves it as it was.  After each replacement
the listeners are called in the order of their subscriptions, with the new project in place.

A listener may have subscribed several times; taking a subscription back takes back its earliest
one.  A listener that wants to be called once takes a subscription back each time it is called.
-/

namespace SchemaDesk

/-- Who is told of a new project: the undo history, or a watcher with a name. -/
inductive Listener where
  | recorder
  | watcher (name : Value) (once : Bool)
  deriving DecidableEq, Repr

/-- Whether a listener takes a subscription back when it is called. -/
def Listener.isOnce : Listener → Bool
  | .recorder => false
  | .watcher _ once => once

/-- A project that was put in place, and the listeners that were called for it. -/
structure Announcement where
  project : Project
  called : List Listener
  deriving DecidableEq, Repr

/-- The project being edited, what a new project starts with, who listens, and the identifiers drawn
so far. -/
structure Store where
  project : Project
  defaultName : Value
  defaultDatabase : Value
  listeners : List Listener := []
  ids : IdSupply := {}
  deriving DecidableEq, Repr

/-- What became of an operation on a store: its result, the store after it, and the projects that
were put in place. -/
structure Outcome (α : Type) where
  result : Except Failure α
  store : Store
  announced : List Announcement := []

namespace Store

/-- A store with an empty project. -/
def empty (name database : Value) (ids : IdSupply) : Store :=
  let drawn := ids.drawn + 1
  { project := { id := identifier drawn, name, database }
    defaultName := name, defaultDatabase := database, ids := ⟨drawn⟩ }

/-- A store with a given project. -/
def ofProject (project : Project) (name database : Value) (ids : IdSupply) : Store :=
  { project, defaultName := name, defaultDatabase := database, ids }

/-- Adds a subscription. -/
def subscribe (s : Store) (l : Listener) : Store :=
  { s with listeners := s.listeners ++ [l] }

/-- Takes back the earliest subscription of a listener, if it has one. -/
def unsubscribe (s : Store) (l : Listener) : Store :=
  { s with listeners := s.listeners.erase l }

/-- The subscriptions left after some listeners have been called. -/
def afterCalls (called subscribed : List Listener) : List Listener :=
  called.foldl (fun left l => if l.isOnce then left.erase l else left) subscribed

/-- Puts a project in place and calls the listeners. -/
def commit (s : Store) (p : Project) : Store × Announcement :=
  ({ s with project := p, listeners := afterCalls s.listeners s.listeners }, ⟨p, s.listeners⟩)

/-- Performs an edit: all of it, or nothing if it fails. -/
def perform {α : Type} (s : Store) (edit : Edit α) : Outcome α :=
  match (edit s.project).runFrom s.ids with
  | (.error failure, ids) => ⟨.error failure, { s with ids }, []⟩
  | (.ok (answer, none), ids) => ⟨.ok answer, { s with ids }, []⟩
  | (.ok (answer, some project), ids) =>
      let (store, announcement) := commit { s with ids } project
      ⟨.ok answer, store, [announcement]⟩

/-- Carries out a command. -/
def execute (s : Store) (command : Command) : Outcome Reply :=
  s.perform (command.edit s.defaultName s.defaultDatabase)

end Store

end SchemaDesk
