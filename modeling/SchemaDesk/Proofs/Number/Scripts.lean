import SchemaDesk.Proofs.Number.Digits

/-!
# Digits of every script

There are digits with a decimal value, such as those of the Arabic script, and digits without one,
such as superscripts.  A run of digits writes a number only if all of them are of the first kind,
and if there are not more of them than a numeral may have (`Numeral.toInt?_isSome_iff`).
-/

namespace SchemaDesk

namespace Text

/-- No blank is a digit. -/
theorem isDigit_of_isBlank {c : Char} (h : isBlank c = true) : isDigit c = false := by
  have hblanks : ∀ n ∈ [9, 10, 11, 12, 13, 28, 29, 30, 31, 32, 0x85, 0xA0, 0x1680, 0x2000, 0x2001,
      0x2002, 0x2003, 0x2004, 0x2005, 0x2006, 0x2007, 0x2008, 0x2009, 0x200A, 0x2028, 0x2029,
      0x202F, 0x205F, 0x3000], isDigit (Char.ofNat n) = false := by decide +kernel
  have hmem := hblanks c.toNat (by
    simp only [isBlank, Bool.or_eq_true, Bool.and_eq_true, decide_eq_true_eq, beq_iff_eq] at h
    simp only [List.mem_cons, List.not_mem_nil, or_false]
    omega)
  rwa [Char.ofNat_toNat] at hmem

theorem digitValue?_lt {c : Char} {n : Nat} (h : digitValue? c = some n) : n < 10 := by
  rw [digitValue?] at h
  split at h
  · split at h
    · next hc =>
        cases h
        exact isDigit_cases (motive := fun c => c.toNat - 48 < 10) (by decide) hc
    · cases h
  · obtain ⟨z, hz, rfl⟩ := Option.map_eq_some_iff.1 h
    have hrange := List.find?_some hz
    simp only [Bool.and_eq_true, decide_eq_true_eq] at hrange
    omega

end Text

namespace Numeral

open Text (digitValue? isBlank)

/-- A digit with a decimal value becomes the ASCII digit of that value. -/
theorem plain_of_digitValue? {c : Char} {n : Nat} (h : digitValue? c = some n) :
    (plain c).isDigit = true := by
  rw [plain]
  split
  · next hascii =>
      rw [digitValue?, if_pos hascii] at h
      split at h
      · assumption
      · cases h
  · have hblank : isBlank c = false := by
      rw [← Bool.not_eq_true]
      intro hblank
      have hdigit := Text.isDigit_of_isBlank hblank
      rw [Text.isDigit, h] at hdigit
      cases hdigit
    have hall : ∀ n < 10, (Char.ofNat (48 + n)).isDigit = true := by decide
    rw [hblank, h]
    exact hall n (Text.digitValue?_lt h)

/-- A digit without a decimal value stays as it is, outside ASCII. -/
theorem plain_of_undecimal {c : Char} (hc : Text.isDigit c = true) (h : digitValue? c = none) :
    plain c = c ∧ 128 ≤ c.toNat := by
  have hlarge : 128 ≤ c.toNat := by
    refine Nat.le_of_not_lt fun hsmall => ?_
    -- the first digit without a decimal value is the superscript two
    rw [Text.isDigit, h, Option.isSome_none, Bool.false_or, Text.undecimalDigits,
      Text.Toggle.memberFrom, if_pos (by omega)] at hc
    cases hc
  have hblank : isBlank c = false := by
    rw [← Bool.not_eq_true]
    intro hblank
    rw [Text.isDigit_of_isBlank hblank] at hc
    cases hc
  rw [plain, if_neg (by omega), hblank, h]
  exact ⟨rfl, hlarge⟩

/-- What a digit becomes is an ASCII digit or outside ASCII. -/
theorem plain_cases {c : Char} (hc : Text.isDigit c = true) :
    (plain c).isDigit = true ∨ 128 ≤ (plain c).toNat := by
  cases h : digitValue? c with
  | some n => exact .inl (plain_of_digitValue? h)
  | none =>
      obtain ⟨hplain, hlarge⟩ := plain_of_undecimal hc h
      rw [hplain]
      exact .inr hlarge

/-- So it differs from all other ASCII characters. -/
theorem plain_ne {c d : Char} (hc : Text.isDigit c = true) (hd : d.toNat < 128)
    (hdigit : d.isDigit = false) : plain c ≠ d := by
  rintro rfl
  rcases plain_cases hc with h | h
  · rw [h] at hdigit
    cases hdigit
  · omega

/-- If nothing is left after the digits, there was nothing else but underscores. -/
theorem isDigit_of_takeDigits {cs : List Char} (h : (takeDigits cs).2 = []) :
    ∀ c ∈ cs, c.isDigit = true ∨ c = '_' := by
  fun_induction takeDigits cs with
  | case1 => exact fun c hc => absurd hc List.not_mem_nil
  | case2 c hc => exact fun d hd => .inl (List.mem_singleton.1 hd ▸ hc)
  | case3 c hc => cases h
  | case4 c d rest hc => cases h
  | case5 c rest hc hnext digits left heq ih =>
      rw [heq] at ih
      have hc : c.isDigit = true := by simpa using hc
      exact List.forall_mem_cons.2 ⟨.inl hc, List.forall_mem_cons.2 ⟨.inr rfl, ih h⟩⟩
  | case6 c rest hc hnext => cases h
  | case7 c d rest hc hd digits left heq ih =>
      rw [heq] at ih
      have hc : c.isDigit = true := by simpa using hc
      exact List.forall_mem_cons.2 ⟨.inl hc, ih h⟩

section Runs

variable {cs : List Char}

/-- In a run of digits there is nothing to be taken away around them, and no sign. -/
theorem normalize_run (hcs : ∀ c ∈ cs, Text.isDigit c = true) :
    normalize cs = cs.map plain ∧ takeSign (cs.map plain) = (false, cs.map plain) := by
  have hpadding : ∀ c ∈ cs, isPadding (plain c) = false := by
    intro c hc
    rcases plain_cases (hcs c hc) with hdigit | hlarge
    · exact isPadding_of_isDigit hdigit
    · simp only [isPadding, Bool.or_eq_false_iff, Bool.and_eq_false_iff, decide_eq_false_iff_not]
      refine ⟨plain_ne (hcs c hc) (by decide) (by decide), .inr (by omega)⟩
  have hsign : ∀ d ∈ cs.map plain, d ≠ '-' ∧ d ≠ '+' := List.forall_mem_map.2 fun c hc =>
    ⟨plain_ne (hcs c hc) (by decide) (by decide), plain_ne (hcs c hc) (by decide) (by decide)⟩
  exact ⟨normalize_eq_map hpadding, takeSign_eq hsign⟩

/-- If each digit of a run has a decimal value, the run writes the number of the ASCII digits of
these values, unless there are too many of them. -/
theorem toInt?_run (hcs : ∀ c ∈ cs, Text.isDigit c = true) (hne : cs ≠ [])
    (hvalues : ∀ c ∈ cs, (digitValue? c).isSome = true) :
    (∀ d ∈ cs.map plain, d.isDigit = true) ∧
      toInt? (Text.ofChars cs) =
        if cs.length ≤ maxDigits then some ((value (cs.map plain) : Nat) : Int) else none := by
  obtain ⟨hnormal, hsign⟩ := normalize_run hcs
  have hdigits : ∀ d ∈ cs.map plain, d.isDigit = true := by
    refine List.forall_mem_map.2 fun c hc => ?_
    obtain ⟨n, hn⟩ := Option.isSome_iff_exists.1 (hvalues c hc)
    exact plain_of_digitValue? hn
  refine ⟨hdigits, ?_⟩
  rw [toInt?, Text.chars?_ofChars]
  simp only [Option.bind_eq_bind, Option.bind_some, hnormal, hsign]
  rw [takeDigits_digits hdigits, ← List.length_map (f := plain)]
  cases hmap : cs.map plain with
  | nil => exact absurd (List.map_eq_nil_iff.1 hmap) hne
  | cons d ds => rfl

/-- A run of digits of any script writes a number exactly when each has a decimal value and there
are not too many of them. -/
theorem toInt?_isSome_iff (hcs : ∀ c ∈ cs, Text.isDigit c = true) (hne : cs ≠ []) :
    (toInt? (Text.ofChars cs)).isSome = true ↔
      (∀ c ∈ cs, (digitValue? c).isSome = true) ∧ cs.length ≤ maxDigits := by
  by_cases hvalues : ∀ c ∈ cs, (digitValue? c).isSome = true
  · rw [(toInt?_run hcs hne hvalues).2]
    split <;> simp_all
  · -- a digit without a value is still there, so something is left after the digits
    have hleft : (takeDigits (cs.map plain)).2 ≠ [] := by
      intro hnil
      refine hvalues fun c hc => ?_
      rcases isDigit_of_takeDigits hnil _ (List.mem_map_of_mem hc) with hdigit | hunderscore
      · refine Option.isSome_iff_ne_none.2 fun hnone => ?_
        obtain ⟨hplain, hlarge⟩ := plain_of_undecimal (hcs c hc) hnone
        rw [hplain] at hdigit
        exact absurd hlarge (isDigit_cases (motive := fun c => ¬128 ≤ c.toNat) (by decide) hdigit)
      · exact absurd hunderscore (plain_ne (hcs c hc) (by decide) (by decide))
    obtain ⟨hnormal, hsign⟩ := normalize_run hcs
    rw [toInt?, Text.chars?_ofChars]
    simp only [Option.bind_eq_bind, Option.bind_some, hnormal, hsign]
    refine iff_of_false ?_ fun h => hvalues h.1
    rcases htake : takeDigits (cs.map plain) with ⟨_ | ⟨d, ds⟩, _ | ⟨e, es⟩⟩ <;> simp_all

/-- The number that a run of digits writes is a natural number of no more digits than a numeral may
have. -/
theorem exists_of_toInt?_run (hcs : ∀ c ∈ cs, Text.isDigit c = true) (hne : cs ≠ []) {i : Int}
    (h : toInt? (Text.ofChars cs) = some i) :
    ∃ n : Nat, i = n ∧ (Nat.toDigits 10 n).length ≤ maxDigits := by
  obtain ⟨hvalues, hlength⟩ := (toInt?_isSome_iff hcs hne).1 (h ▸ rfl)
  obtain ⟨hdigits, hread⟩ := toInt?_run hcs hne hvalues
  rw [hread, if_pos hlength] at h
  cases h
  refine ⟨_, rfl, (Nat.length_toDigits_le_iff (by decide) (by decide)).2 ?_⟩
  have hlt := value_lt hdigits
  rw [List.length_map] at hlt
  exact Nat.lt_of_lt_of_le hlt (Nat.pow_le_pow_right (by decide) hlength)

end Runs

end Numeral

end SchemaDesk
