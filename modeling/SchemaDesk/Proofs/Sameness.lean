import Mathlib.Data.List.Nodup
import SchemaDesk.Value.Basic

/-!
# Sameness of values

`Value.same` compares representatives, so it is an equivalence, and a list of values without
repetitions is a list whose representatives are all different.  What depends only on the
representative is the same for values that are the same: whether a value can serve as a key, and
whether it is a given text.
-/

namespace SchemaDesk.Value

theorem same_iff {a b : Value} : a.same b = true ↔ a.canon = b.canon := by
  simp [same]

@[simp] theorem canon_str (s : Text) : (Value.str s).canon = .str s := by
  simp [canon]

/-- Only a text is the same as a text, and then it is that text. -/
theorem eq_str_of_canon {v : Value} {s : Text} (h : v.canon = .str s) : v = .str s := by
  cases v with
  | float x => cases hx : x.toInt? <;> simp [canon, hx] at h
  | _ => simp_all [canon]

/-- A text is the same as nothing but itself. -/
theorem eq_of_canon {a b : Value} (ha : ∃ s, a = .str s) (h : a.canon = b.canon) : a = b := by
  obtain ⟨s, rfl⟩ := ha
  rw [canon_str] at h
  exact (eq_str_of_canon h.symm).symm

theorem isNan_of_text {v : Value} (h : ∃ s, v = .str s) : v.isNan = false := by
  obtain ⟨s, rfl⟩ := h
  rfl

theorem canon_eq_str_iff {v : Value} {s : Text} : v.canon = .str s ↔ v = .str s :=
  ⟨eq_str_of_canon, fun h => by rw [h, canon_str]⟩

/-! ## What the representative decides -/

@[simp] theorem isKey_canon (v : Value) : v.canon.isKey = v.isKey := by
  cases v with
  | float x => cases hx : x.toInt? <;> simp [canon, hx, isKey]
  | _ => simp [canon, isKey]

theorem isKey_of_canon {a b : Value} (h : a.canon = b.canon) : a.isKey = b.isKey := by
  rw [← isKey_canon a, h, isKey_canon]

/-- Only what is not a number stands for itself as no number does. -/
@[simp] theorem isNan_canon (v : Value) : v.canon.isNan = v.isNan := by
  cases v with
  | float x => cases x with
    | finite s m e => cases hx : (Binary64.finite s m e).toInt? <;> simp [canon, hx, isNan]
    | _ => simp [canon, isNan, Binary64.toInt?]
  | _ => simp [canon, isNan]

theorem isNan_of_canon {a b : Value} (h : a.canon = b.canon) : a.isNan = b.isNan := by
  rw [← isNan_canon a, h, isNan_canon]

theorem equals_iff {a b : Value} : a.equals b = true ↔ a.isNan = false ∧ a.canon = b.canon := by
  simp [equals, same_iff]

/-- Values that are the same and not NaN are equal to the same values. -/
theorem canon_of_equals {a b : Value} (h : a.equals b = true) : a.canon = b.canon :=
  (equals_iff.1 h).2

/-! ## Lists of values -/

theorem isAmong_iff {vs : List Value} {v : Value} :
    v.isAmong vs = true ↔ v.canon ∈ vs.map canon := by
  simp [isAmong, same_iff]

/-- No two values are the same exactly when no representative occurs twice. -/
theorem allDistinct_iff {vs : List Value} :
    allDistinct vs = true ↔ (vs.map canon).Nodup := by
  induction vs with
  | nil => simp [allDistinct]
  | cons v rest ih =>
      rw [allDistinct, Bool.and_eq_true, ih, List.map_cons, List.nodup_cons]
      rw [Bool.not_eq_true', ← Bool.not_eq_true, isAmong_iff]

end SchemaDesk.Value
