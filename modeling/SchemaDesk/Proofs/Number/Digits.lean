import Mathlib.Algebra.Group.Nat.Defs
import Mathlib.Data.List.Induction
import SchemaDesk.Number.Numeral
import SchemaDesk.Timestamp
import SchemaDesk.Value.Display

/-!
# Numbers in decimal digits

A natural number is written in decimal digits, and reading them gives the number back
(`Numeral.toInt?_digits`), as long as there are not more of them than a numeral may have.  Digits
are also what most of a written point in time consists of, so that is one line of text
(`Timestamp.newline_notMem_text`), and there is one in every number, so that of all values only the
empty text is shown as nothing (`Value.text_ne_nil`).
-/

namespace SchemaDesk

/-- The text of a natural number is its decimal digits. -/
theorem Value.text_int (n : Nat) : (Value.int n).text = Text.ofChars (Nat.toDigits 10 n) := by
  show Text.ofString (toString (n : Int)) = _
  have hrepr : toString (n : Int) = n.repr := rfl
  rw [hrepr, Text.ofString, Nat.toList_repr]

/-- What holds of all ASCII digits. -/
theorem isDigit_cases {motive : Char → Prop} (h : ∀ n < 10, motive (Char.ofNat (48 + n))) {c : Char}
    (hc : c.isDigit = true) : motive c := by
  have hbounds : 48 ≤ c.toNat ∧ c.toNat ≤ 57 := by
    rw [Char.isDigit, Bool.and_eq_true, decide_eq_true_eq, decide_eq_true_eq] at hc
    exact ⟨UInt32.le_iff_toNat_le.1 hc.1, UInt32.le_iff_toNat_le.1 hc.2⟩
  have hchar := h (c.toNat - 48) (by omega)
  rwa [show 48 + (c.toNat - 48) = c.toNat by omega, Char.ofNat_toNat] at hchar

namespace Numeral

theorem plain_of_isDigit {c : Char} (h : c.isDigit = true) : plain c = c :=
  isDigit_cases (motive := fun c => plain c = c) (by decide) h

theorem isPadding_of_isDigit {c : Char} (h : c.isDigit = true) : isPadding c = false :=
  isDigit_cases (motive := fun c => isPadding c = false) (by decide) h

variable {cs : List Char}

/-- Characters that are no padding have nothing around them to be taken away. -/
theorem normalize_eq_map (h : ∀ c ∈ cs, isPadding (plain c) = false) :
    normalize cs = cs.map plain := by
  have hkeep : ∀ ds : List Char, (∀ d ∈ ds, isPadding d = false) → ds.dropWhile isPadding = ds := by
    intro ds hds
    cases ds with
    | nil => rfl
    | cons d ds =>
        rw [List.dropWhile_cons, hds d List.mem_cons_self, if_neg Bool.false_ne_true]
  have hmap : ∀ d ∈ cs.map plain, isPadding d = false := List.forall_mem_map.2 h
  rw [normalize, hkeep _ hmap, hkeep _ fun d hd => hmap d (List.mem_reverse.1 hd),
    List.reverse_reverse]

theorem normalize_digits (h : ∀ c ∈ cs, c.isDigit = true) : normalize cs = cs := by
  have hplain : cs.map plain = cs := by
    rw [List.map_congr_left fun c hc => plain_of_isDigit (h c hc), List.map_id']
  have hpadding : ∀ c ∈ cs, isPadding (plain c) = false := fun c hc => by
    rw [plain_of_isDigit (h c hc)]
    exact isPadding_of_isDigit (h c hc)
  rw [normalize_eq_map hpadding, hplain]

/-- What begins with no sign has none. -/
theorem takeSign_eq (h : ∀ c ∈ cs, c ≠ '-' ∧ c ≠ '+') : takeSign cs = (false, cs) := by
  cases cs with
  | nil => rfl
  | cons c cs =>
      obtain ⟨hminus, hplus⟩ := h c List.mem_cons_self
      simp [takeSign, hminus, hplus]

theorem takeSign_digits (h : ∀ c ∈ cs, c.isDigit = true) : takeSign cs = (false, cs) := by
  refine takeSign_eq fun c hc => ⟨?_, ?_⟩ <;>
  · rintro rfl
    exact absurd (h _ hc) (by decide)

/-- All digits are taken. -/
theorem takeDigits_digits (h : ∀ c ∈ cs, c.isDigit = true) : takeDigits cs = (cs, []) := by
  induction cs with
  | nil => rfl
  | cons c cs ih =>
      have hc := h c List.mem_cons_self
      have hcs : ∀ d ∈ cs, d.isDigit = true := fun d hd => h d (List.mem_cons_of_mem _ hd)
      cases cs with
      | nil => rw [takeDigits, if_pos hc]
      | cons d cs =>
          have hd : d ≠ '_' := by
            rintro rfl
            exact absurd (hcs '_' List.mem_cons_self) (by decide)
          rw [takeDigits, hc, if_neg (by decide), if_neg hd, ih hcs]

theorem value_toDigits (n : Nat) : value (Nat.toDigits 10 n) = n :=
  Nat.ofDigitChars_ten_toDigits

/-- Digits write a number that has no more digits than they are. -/
theorem value_lt {ds : List Char} (h : ∀ d ∈ ds, d.isDigit = true) : value ds < 10 ^ ds.length := by
  induction ds using List.reverseRecOn with
  | nil => decide
  | append_singleton ds d ih =>
      have hds := ih fun e he => h e (List.mem_append_left _ he)
      have hd : d.toNat - 48 < 10 :=
        isDigit_cases (motive := fun d => d.toNat - 48 < 10) (by decide)
          (h d (List.mem_append_right _ List.mem_cons_self))
      rw [value] at hds ⊢
      rw [List.foldl_append, List.length_append, List.length_singleton, Nat.pow_succ]
      simp only [List.foldl_cons, List.foldl_nil]
      omega

/-- Reading the digits of a number gives the number, unless there are too many of them. -/
theorem toInt?_digits {n : Nat} (h : (Nat.toDigits 10 n).length ≤ maxDigits) :
    toInt? (Text.ofChars (Nat.toDigits 10 n)) = some (n : Int) := by
  have hdigits : ∀ c ∈ Nat.toDigits 10 n, c.isDigit = true := fun c hc =>
    Nat.isDigit_of_mem_toDigits (by decide) (by decide) hc
  rw [toInt?, Text.chars?_ofChars]
  simp only [Option.bind_eq_bind, Option.bind_some, normalize_digits hdigits,
    takeSign_digits hdigits, takeDigits_digits hdigits]
  have hvalue := value_toDigits n
  have hne : Nat.toDigits 10 n ≠ [] := Nat.toDigits_ne_nil
  generalize Nat.toDigits 10 n = digits at *
  cases digits with
  | nil => exact absurd rfl hne
  | cons d digits =>
      show (if (d :: digits).length ≤ maxDigits then some ((value (d :: digits) : Nat) : Int)
        else none) = some (n : Int)
      rw [if_pos h, hvalue]

end Numeral

/-! ## Points in time -/

namespace Timestamp

theorem newline_notMem_padded (width n : Nat) : '\n' ∉ (padded width n).toList := by
  rw [padded, String.toList_ofList, List.mem_append, not_or]
  refine ⟨fun h => ?_, fun h => ?_⟩
  · exact absurd (List.eq_of_mem_replicate h) (by decide)
  · exact absurd (Nat.isDigit_of_mem_toDigits (by decide) (by decide) h) (by decide)

theorem newline_notMem_offsetText (micros : Int) : '\n' ∉ (offsetText micros).toList := by
  simp only [offsetText, String.toList_append, List.mem_append, not_or]
  refine ⟨⟨⟨⟨⟨?_, newline_notMem_padded _ _⟩, by decide⟩, newline_notMem_padded _ _⟩, ?_⟩, ?_⟩
  · split <;> decide
  · split
    · decide
    · simp [newline_notMem_padded]
  · split
    · decide
    · simp [newline_notMem_padded]

/-- A point in time is written on one line. -/
theorem newline_notMem_text (t : Timestamp) : '\n' ∉ t.text.toList := by
  have hfraction : '\n' ∉
      (if t.microsecond = 0 then "" else "." ++ padded 6 t.microsecond).toList := by
    split
    · decide
    · simp [newline_notMem_padded]
  have hoffset : '\n' ∉ ((t.offset.map offsetText).getD "").toList := by
    cases t.offset with
    | none => decide
    | some micros => exact newline_notMem_offsetText micros
  simp [text, newline_notMem_padded, hfraction, hoffset]

end Timestamp

/-! ## Texts of values -/

namespace Binary64

theorem positional_ne_nil (digits : List Char) (point : Int) : positional digits point ≠ [] := by
  rw [positional]
  split
  · simp
  · split <;> simp

theorem scientific_ne_nil (digits : List Char) (power : Int) (exponentDigits : Nat) :
    scientific digits power exponentDigits ≠ [] := by
  rw [scientific.eq_def]
  cases digits with
  | nil => exact List.cons_ne_nil _ _
  | cons d rest => cases rest <;> exact List.cons_ne_nil _ _

/-- Every number has a text. -/
theorem text_ne_nil (x : Binary64) : x.text.toList ≠ [] := by
  cases x with
  | nan => decide
  | infinite negative => cases negative <;> decide
  | finite negative mantissa exponent =>
      have hsigned : ∀ unsigned : List Char, unsigned ≠ [] →
          (if negative then '-' :: unsigned else unsigned) ≠ [] := by
        intro unsigned h
        cases negative with
        | true => exact List.cons_ne_nil _ _
        | false => exact h
      rw [text, String.toList_ofList]
      refine hsigned _ ?_
      split
      · exact List.cons_ne_nil _ _
      · generalize shortest mantissa exponent = found
        obtain ⟨value, power⟩ := found
        simp only
        split
        · exact positional_ne_nil _ _
        · exact scientific_ne_nil _ _ _

end Binary64

theorem Text.ofString_eq_nil {s : String} : ofString s = [] ↔ s.toList = [] := by
  simp [ofString, ofChars]

/-- Only the empty text has no text. -/
theorem Value.text_ne_nil {v : Value} (h : v ≠ .str []) : v.text ≠ [] := by
  cases v with
  | null => decide
  | bool b => cases b <;> decide
  | int i =>
      show Text.ofString (toString i) ≠ []
      rw [Ne, Text.ofString_eq_nil]
      cases i with
      | ofNat n =>
          rw [show toString (Int.ofNat n) = n.repr from rfl, Nat.toList_repr]
          exact Nat.toDigits_ne_nil
      | negSucc n =>
          rw [show toString (Int.negSucc n) = "-" ++ (n + 1).repr from rfl]
          simp
  | float x =>
      show Text.ofString x.text ≠ []
      rw [Ne, Text.ofString_eq_nil]
      exact x.text_ne_nil
  | str s => exact fun hs => h (by rw [← hs, text_str])
  | list items =>
      rw [text, nestedText]
      · simp [Text.ofString_eq_nil]
      · simp
  | object entries =>
      rw [text, nestedText]
      · simp [Text.ofString_eq_nil]
      · simp

end SchemaDesk
