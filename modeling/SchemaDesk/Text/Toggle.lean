/-!
# Sets of code points as switching points

A set of code points is written as the increasing list of the points where membership changes: the
list `[48, 58]` is the set from 48 up to 57.  The long character tables of this library are written
in this form, which is about half the size of a list of ranges.

Main statement: a single pair of points is the half-open interval between them.
-/

namespace SchemaDesk.Text.Toggle

/-- Membership of `n` in the set that switches at each of `points`, which are increasing.  The flag
says whether `n` is a member when no point at or before `n` is left to pass. -/
def memberFrom : Bool → List Nat → Nat → Bool
  | inside, [], _ => inside
  | inside, p :: points, n => if n < p then inside else memberFrom (!inside) points n

/-- Membership in a set written in several consecutive pieces: only the piece whose first point is
the last one at or before `n` is searched.  Each piece holds an even number of points, so each
starts outside the set. -/
def member : List (List Nat) → Nat → Bool
  | [], _ => false
  | [piece], n => memberFrom false piece n
  | piece :: next :: pieces, n =>
      match next with
      | [] => memberFrom false piece n
      | p :: _ => if n < p then memberFrom false piece n else member (next :: pieces) n

theorem memberFrom_pair {a b n : Nat} :
    memberFrom false [a, b] n = (decide (a ≤ n) && decide (n < b)) := by
  by_cases ha : n < a
  · simp [memberFrom, ha, Nat.not_le.2 ha]
  · by_cases hb : n < b <;> simp [memberFrom, ha, hb, Nat.not_lt.1 ha]

end SchemaDesk.Text.Toggle
