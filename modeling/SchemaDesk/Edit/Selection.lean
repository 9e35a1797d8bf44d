import SchemaDesk.Edit.Merge

/-!
# Taking in some of the declared tables

Of the tables that a text declares, those at some positions can be taken in, in the order of the
positions; the relations are all taken in.  Positions may repeat.  A table appended twice is
refused, because it would have one identifier twice.  A table merged twice is joined where it comes
first and then joined again with what came of it.  This changes nothing unless two of its columns
have the same name, and these would then share an identifier, which is refused.
-/

namespace SchemaDesk.Edit

/-- A position in a list of the given length; a negative one counts from the end. -/
def positionIn (length : Nat) (position : Int) : Except Failure Nat :=
  let fromStart := if position < 0 then position + length else position
  if 0 ≤ fromStart ∧ fromStart < length then .ok fromStart.toNat else .error .noSuchItem

/-- A declared table and where it stands among all that are declared. -/
abbrev Pick := Nat × Table

/-- The tables at some positions. -/
def picks (tables : List Table) (positions : List Nat) : List Pick :=
  positions.filterMap fun i => tables[i]?.map fun t => (i, t)

/-- Appends the tables at some positions. -/
def appendSelected (tables : List Table) (positions : List Nat) (relations : List Relation) :
    Edit Unit :=
  append ((picks tables positions).map Prod.snd) relations

namespace Merge

/-- The picks of which no other table has the same name and comes later. -/
def lastPicks (chosen : List Pick) : List Pick :=
  chosen.filter fun c =>
    (chosen.reverse.find? (·.2.name.sameName c.2.name)).any fun last => last.1 = c.1

/-- The picks without repetitions, each where it comes first. -/
def distinct : List Pick → List Pick
  | [] => []
  | c :: rest => c :: (distinct rest).filter (·.1 ≠ c.1)

/-- The picks that came before, each where it comes again. -/
def repeats (earlier : List Pick) : List Pick → List Pick
  | [] => []
  | c :: rest =>
      let later := repeats (c :: earlier) rest
      if earlier.any (·.1 = c.1) then c :: later else later

/-- Joined tables with a declared table joined once more. -/
def Joined.again (j : Joined) (declared : Table) : Joined :=
  { tables := joinAll [declared] j.tables
    tableIds := j.tableIds ++ Merge.tableIds [declared] j.tables
    columnIds := j.columnIds ++ columnIdsOf j.tables declared }

end Merge

/-- Merges the tables at some positions; the result has to be sound. -/
def mergeSelected (tables : List Table) (positions : List Nat) (relations : List Relation) :
    Edit Unit := fun p => do
  let chosen := Merge.lastPicks (picks tables positions)
  let declared := (Merge.distinct chosen).map Prod.snd
  ofExcept (Merge.check p declared relations)
  let joined := ((Merge.repeats [] chosen).map Prod.snd).foldl Merge.Joined.again
    (Merge.joined declared p.tables)
  let q := joined.into p relations
  ofExcept q.checkIntegrity
  pure ((), some q)

end SchemaDesk.Edit
