import SchemaDesk.Problem.Basic

/-!
# Identifiers

New identifiers are drawn from a supply that counts up from one, so no two draws give the same.  The
count is written in hexadecimal at the front of a UUID.  `Minting` is the type of computations that
draw identifiers and may fail; identifiers drawn before a failure stay used.
-/

namespace SchemaDesk

/-- How many identifiers have been drawn. -/
structure IdSupply where
  drawn : Nat := 0
  deriving DecidableEq, Repr

/-- The `n`-th identifier. -/
def identifier (n : Nat) : Text :=
  Text.ofChars (Value.hexadecimal 8 n) ++ "-0000-4000-8000-000000000000"

/-- A computation that may draw identifiers and may fail. -/
abbrev Minting := ExceptT Failure (StateM IdSupply)

/-- A new identifier. -/
def mint : Minting Text := do
  let supply ← get
  let n := supply.drawn + 1
  set (IdSupply.mk n)
  pure (identifier n)

/-- Fails with a reported problem. -/
def report {α : Type} (p : Problem) : Minting α :=
  throw (.problem p)

/-- Runs a computation on a supply. -/
def Minting.runFrom {α : Type} (m : Minting α) (supply : IdSupply) :
    Except Failure α × IdSupply :=
  m.run.run supply

example : identifier 10 = "0000000a-0000-4000-8000-000000000000" := by decide

end SchemaDesk
