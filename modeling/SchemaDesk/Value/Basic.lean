import SchemaDesk.Number.Binary64
import SchemaDesk.Text.Basic

/-!
# Loosely typed values

Project files and edits may put any value into almost any field of a record: the editor stores what
it is given and checks only names, types and actions.  `Value` is the type of such fields.  It is
the type of JSON values, with whole numbers kept apart from floating-point numbers.

Values are compared by `Value.same`, which is coarser than equality of representations: a truth
value is the same as 0 or 1, a floating-point number is the same as the integer it is equal to, the
two zeros are the same, and the order of an object's entries does not matter.  `Value.equals`
differs from it for the one number that is not equal to itself.
-/

namespace SchemaDesk

/-- A value of a record field or of a file. -/
inductive Value where
  | null
  | bool (b : Bool)
  | int (i : Int)
  | float (x : Binary64)
  | str (s : Text)
  | list (items : List Value)
  | object (entries : List (Text × Value))
  deriving Repr, Inhabited

namespace Value

/-! ## Decidable equality -/

mutual

/-- Equality of representations. -/
def decEq : (a b : Value) → Decidable (a = b)
  | .null, .null => .isTrue rfl
  | .bool a, .bool b => decidable_of_iff (a = b) (by simp)
  | .int a, .int b => decidable_of_iff (a = b) (by simp)
  | .float a, .float b => decidable_of_iff (a = b) (by simp)
  | .str a, .str b => decidable_of_iff (a = b) (by simp)
  | .list a, .list b => @decidable_of_iff _ (a = b) (by simp) (decEqList a b)
  | .object a, .object b => @decidable_of_iff _ (a = b) (by simp) (decEqEntries a b)
  | .null, .bool _ | .null, .int _ | .null, .float _ | .null, .str _ | .null, .list _
  | .null, .object _ | .bool _, .null | .bool _, .int _ | .bool _, .float _ | .bool _, .str _
  | .bool _, .list _ | .bool _, .object _ | .int _, .null | .int _, .bool _ | .int _, .float _
  | .int _, .str _ | .int _, .list _ | .int _, .object _ | .float _, .null | .float _, .bool _
  | .float _, .int _ | .float _, .str _ | .float _, .list _ | .float _, .object _
  | .str _, .null | .str _, .bool _ | .str _, .int _ | .str _, .float _ | .str _, .list _
  | .str _, .object _ | .list _, .null | .list _, .bool _ | .list _, .int _ | .list _, .float _
  | .list _, .str _ | .list _, .object _ | .object _, .null | .object _, .bool _
  | .object _, .int _ | .object _, .float _ | .object _, .str _ | .object _, .list _ =>
      .isFalse (by simp)

/-- Equality of lists of values. -/
def decEqList : (a b : List Value) → Decidable (a = b)
  | [], [] => .isTrue rfl
  | [], _ :: _ => .isFalse (by simp)
  | _ :: _, [] => .isFalse (by simp)
  | a :: as, b :: bs =>
      match decEq a b, decEqList as bs with
      | .isTrue h, .isTrue t => .isTrue (by rw [h, t])
      | .isFalse h, _ => .isFalse fun e => h (List.cons.inj e).1
      | _, .isFalse t => .isFalse fun e => t (List.cons.inj e).2

/-- Equality of the entries of objects. -/
def decEqEntries : (a b : List (Text × Value)) → Decidable (a = b)
  | [], [] => .isTrue rfl
  | [], _ :: _ => .isFalse (by simp)
  | _ :: _, [] => .isFalse (by simp)
  | (k, a) :: as, (l, b) :: bs =>
      if hk : k = l then
        match decEq a b, decEqEntries as bs with
        | .isTrue h, .isTrue t => .isTrue (by rw [hk, h, t])
        | .isFalse h, _ => .isFalse fun e => h (Prod.mk.inj (List.cons.inj e).1).2
        | _, .isFalse t => .isFalse fun e => t (List.cons.inj e).2
      else .isFalse fun e => hk (Prod.mk.inj (List.cons.inj e).1).1

end

instance : DecidableEq Value := decEq

/-! ## Sameness -/

/-- Puts an entry into a list of entries that is sorted by key. -/
def insertEntry (entry : Text × Value) : List (Text × Value) → List (Text × Value)
  | [] => [entry]
  | e :: rest => if entry.1 ≤ e.1 then entry :: e :: rest else e :: insertEntry entry rest

mutual

/-- The representative of all values that are the same as a given one. -/
def canon : Value → Value
  | .null => .null
  | .bool b => .int (if b then 1 else 0)
  | .int i => .int i
  | .float x =>
      match x.toInt? with
      | some i => .int i
      | none => .float x
  | .str s => .str s
  | .list items => .list (canonList items)
  | .object entries => .object (canonEntries entries)

/-- `canon` on each item. -/
def canonList : List Value → List Value
  | [] => []
  | v :: rest => canon v :: canonList rest

/-- `canon` on each entry, with the entries sorted by key. -/
def canonEntries : List (Text × Value) → List (Text × Value)
  | [] => []
  | (key, v) :: rest => insertEntry (key, canon v) (canonEntries rest)

end

/-- Whether two values count as equal. -/
def same (a b : Value) : Bool :=
  a.canon = b.canon

/-- Whether a value is the number that is not a number. -/
def isNan : Value → Bool
  | .float .nan => true
  | _ => false

/-- Whether two values count as equal where they are compared by themselves and not as parts of a
list, a record or a key: as `same`, but what is not a number is equal to nothing. -/
def equals (a b : Value) : Bool :=
  !a.isNan && a.same b

@[simp] theorem same_self (v : Value) : v.same v = true := by
  simp [same]

@[simp] theorem same_str (s t : Text) : (Value.str s).same (.str t) = decide (s = t) := by
  simp [same, canon]

@[simp] theorem equals_str (s : Text) (v : Value) :
    (Value.str s).equals v = (Value.str s).same v := by
  simp [equals, isNan]

/-! ## Other properties -/

/-- Whether a value counts as present: null, zero, and anything empty do not. -/
def isTruthy : Value → Bool
  | .null => false
  | .bool b => b
  | .int i => i ≠ 0
  | .float x => !x.isZero
  | .str s => !s.isEmpty
  | .list items => !items.isEmpty
  | .object entries => !entries.isEmpty

/-- Whether a value can serve as a key.  Lists and objects cannot. -/
def isKey : Value → Bool
  | .list _ => false
  | .object _ => false
  | _ => true

/-- What a value can be run through by: the items of a list, the code points of a text, the keys
of an object.  Other values have none to run through. -/
def elements? : Value → Option (List Value)
  | .list items => some items
  | .str s => some (s.map fun c => .str [c])
  | .object entries => some (entries.map fun entry => .str entry.1)
  | _ => none

/-- Whether a value is the same as one of some values. -/
def isAmong (vs : List Value) (v : Value) : Bool :=
  vs.any (·.same v)

/-- Whether no two of some values are the same. -/
def allDistinct : List Value → Bool
  | [] => true
  | v :: rest => !v.isAmong rest && allDistinct rest

/-- The value of an object's entry. -/
def get? (key : Text) : List (Text × Value) → Option Value :=
  List.lookup key

/-- A truth value as a value. -/
instance : Coe Bool Value := ⟨.bool⟩

/-- A text as a value. -/
instance : Coe Text Value := ⟨.str⟩

/-- A string as a value. -/
instance : Coe String Value := ⟨fun s => .str s⟩

end Value

end SchemaDesk
