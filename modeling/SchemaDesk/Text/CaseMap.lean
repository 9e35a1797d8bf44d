import SchemaDesk.Text.Basic

/-!
# Maps between letter cases

A case map sends each character to one or more characters.  Most characters outside ASCII that it
changes lie in runs in which every character, or every second one, moves by the same distance; the
others are listed with their expansions.
-/

namespace SchemaDesk.Text.CaseMap

/-- Every `step`-th code point from `first` to `last` moves to the code point as far from `image` as
it is from `first`. -/
structure Run where
  first : Nat
  last : Nat
  step : Nat
  image : Nat

/-- The image of a code point of the run. -/
def Run.image? (r : Run) (n : Nat) : Option Nat :=
  if r.first ≤ n ∧ n ≤ r.last ∧ (n - r.first) % r.step = 0 then some (r.image + (n - r.first))
  else none

/-- The image of a character under the map with these runs and expansions; a character that neither
mentions stays as it is. -/
def apply (runs : List (List Run)) (expansions : List (List (Nat × List Nat))) (c : Char) :
    List Char :=
  match runs.findSome? fun piece => piece.findSome? (·.image? c.toNat) with
  | some n => [Char.ofNat n]
  | none =>
      match expansions.findSome? (List.lookup c.toNat) with
      | some ns => ns.map Char.ofNat
      | none => [c]

/-- A case map on code points; a surrogate has no case. -/
def onCodePoint (map : Char → List Char) : CodePoint → Text
  | .char c => ofChars (map c)
  | .surrogate index => [.surrogate index]

end SchemaDesk.Text.CaseMap
