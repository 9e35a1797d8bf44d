import Mathlib.Data.List.TakeWhile
import SchemaDesk.Text.Blank

/-!
# Texts without blanks at their ends

Trimming takes away blanks that stand around a text (`trim_surrounded`) and leaves alone a text that
begins and ends with other characters (`Trimmed.trim`).  Joined texts are written out here too, as
the first one followed by the others, each after its separator.
-/

namespace SchemaDesk.Text

/-- Joining is the first text followed by the later ones, each after the separator. -/
theorem join_cons (separator t : Text) (ts : List Text) :
    join separator (t :: ts) = t ++ ts.flatMap (separator ++ ·) := by
  induction ts generalizing t with
  | nil => simp [join]
  | cons u ts ih =>
      have hu := ih u
      rw [join] at hu ⊢
      rw [List.intercalate_cons_cons, hu]
      simp

/-! ## Trimming -/

/-- Blanks in front of a text do not count. -/
theorem trimLeft_append {lead : Text} (h : isBlankText lead = true) (t : Text) :
    trimLeft (lead ++ t) = trimLeft t := by
  have hnil : lead.dropWhile (·.is isBlank) = [] := by
    rw [List.dropWhile_eq_nil_iff]
    exact List.all_eq_true.1 h
  rw [trimLeft, List.dropWhile_append, hnil]
  rfl

theorem trimRight_isPrefix (t : Text) : trimRight t <+: t := by
  rw [trimRight, ← List.reverse_suffix, List.reverse_reverse]
  exact List.dropWhile_suffix _

/-- Blanks after a text do not count. -/
theorem trimRight_append {trail : Text} (h : isBlankText trail = true) (t : Text) :
    trimRight (t ++ trail) = trimRight t := by
  have hnil : trail.reverse.dropWhile (·.is isBlank) = [] := by
    rw [List.dropWhile_eq_nil_iff]
    intro c hc
    exact List.all_eq_true.1 h c (List.mem_reverse.1 hc)
  rw [trimRight, List.reverse_append, List.dropWhile_append, hnil]
  rfl

/-- Trimming takes away the blanks around a text. -/
theorem trim_surrounded {lead trail : Text} (hlead : isBlankText lead = true)
    (htrail : isBlankText trail = true) (t : Text) : trim (lead ++ (t ++ trail)) = trim t := by
  rw [trim, trim, trimLeft_append hlead]
  by_cases ht : trimLeft t = []
  · -- the text is blank, so nothing is left on either side
    have hblank : trimLeft (t ++ trail) = [] := by
      rw [trimLeft] at ht ⊢
      rw [List.dropWhile_append, ht]
      exact List.dropWhile_eq_nil_iff.2 (List.all_eq_true.1 htrail)
    rw [ht, hblank]
  · have hkeep : trimLeft (t ++ trail) = trimLeft t ++ trail := by
      rw [trimLeft] at ht
      rw [trimLeft, trimLeft, List.dropWhile_append, if_neg (by simpa using ht)]
    rw [hkeep, trimRight_append htrail]

/-- Trimming takes away the blanks that stand around what is left. -/
theorem exists_surrounded (t : Text) : ∃ lead trail, isBlankText lead = true ∧
    isBlankText trail = true ∧ t = lead ++ (t.trim ++ trail) := by
  have hlead : t = t.takeWhile (·.is isBlank) ++ t.trimLeft :=
    List.takeWhile_append_dropWhile.symm
  have htrail : t.trimLeft =
      t.trim ++ (t.trimLeft.reverse.takeWhile (·.is isBlank)).reverse := by
    rw [trim, trimRight, ← List.reverse_append, List.takeWhile_append_dropWhile,
      List.reverse_reverse]
  refine ⟨_, _, List.all_takeWhile, ?_, hlead.trans (congrArg _ htrail)⟩
  rw [isBlankText, List.all_reverse]
  exact List.all_takeWhile

/-- Only blanks in front of a text that begins with another character are taken away. -/
theorem trimLeft_before {t : Text} (h : ∃ c, t.head? = some c ∧ c.is isBlank = false)
    (lead : Text) : trimLeft (lead ++ t) = trimLeft lead ++ t := by
  obtain ⟨c, hc, hfirst⟩ := h
  have hkeep : t.dropWhile (·.is isBlank) = t := by
    cases t with
    | nil => rfl
    | cons a t =>
        cases hc
        rw [List.dropWhile_cons, hfirst, if_neg Bool.false_ne_true]
  rw [trimLeft, trimLeft, List.dropWhile_append, hkeep]
  split
  · next hnil => rw [List.isEmpty_iff.1 hnil, List.nil_append]
  · rfl

/-- Only blanks after a text that ends with another character are taken away. -/
theorem trimRight_after {t : Text} (h : ∃ c, t.getLast? = some c ∧ c.is isBlank = false)
    (trail : Text) : trimRight (t ++ trail) = t ++ trimRight trail := by
  obtain ⟨c, hc, hlast⟩ := h
  have hfirst : ∃ c, t.reverse.head? = some c ∧ c.is isBlank = false :=
    ⟨c, by rw [← List.getLast?_eq_head?_reverse]; exact hc, hlast⟩
  have hleft := trimLeft_before hfirst trail.reverse
  rw [trimLeft, trimLeft] at hleft
  rw [trimRight, trimRight, List.reverse_append, hleft, List.reverse_append, List.reverse_reverse]

/-- A text whose first and last characters are not blank. -/
structure Trimmed (t : Text) : Prop where
  first : ∃ c, t.head? = some c ∧ c.is isBlank = false
  last : ∃ c, t.getLast? = some c ∧ c.is isBlank = false

namespace Trimmed

variable {t : Text}

theorem ne_nil (h : Trimmed t) : t ≠ [] := by
  rintro rfl
  obtain ⟨c, hc, -⟩ := h.first
  cases hc

/-- A text without blanks at its ends is not changed by trimming. -/
theorem trim (h : Trimmed t) : t.trim = t := by
  obtain ⟨c, hc, hfirst⟩ := h.first
  obtain ⟨d, hd, hlast⟩ := h.last
  have hleft : trimLeft t = t := by
    cases t with
    | nil => rfl
    | cons a t =>
        cases hc
        rw [trimLeft, List.dropWhile_cons, hfirst]
        rfl
  have hright : trimRight t = t := by
    rw [List.getLast?_eq_head?_reverse] at hd
    cases hrev : t.reverse with
    | nil => rw [hrev] at hd; cases hd
    | cons a rest =>
        rw [hrev] at hd
        cases hd
        rw [trimRight, hrev, List.dropWhile_cons, hlast, if_neg Bool.false_ne_true, ← hrev,
          List.reverse_reverse]
  rw [Text.trim, hleft, hright]

/-- Around a text without blanks at its ends only the outer blanks are taken away. -/
theorem trim_around (h : Trimmed t) (lead trail : Text) :
    Text.trim (lead ++ (t ++ trail)) = lead.trimLeft ++ (t ++ trail.trimRight) := by
  obtain ⟨c, hc, hfirst⟩ := h.first
  obtain ⟨d, hd, hlast⟩ := h.last
  have hstart : ∃ c, (t ++ trail).head? = some c ∧ c.is isBlank = false :=
    ⟨c, by rw [List.head?_append, hc, Option.some_or], hfirst⟩
  have hend : ∃ d, (lead.trimLeft ++ t).getLast? = some d ∧ d.is isBlank = false :=
    ⟨d, by rw [List.getLast?_append, hd, Option.some_or], hlast⟩
  rw [Text.trim, trimLeft_before hstart, ← List.append_assoc, trimRight_after hend,
    List.append_assoc]

end Trimmed

/-- What is left of a text when it is trimmed has no blanks at its ends. -/
theorem trimmed_trim {t : Text} (h : t.trim ≠ []) : Trimmed t.trim := by
  have hleft : trimLeft t ≠ [] := by
    intro hnil
    rw [trim, hnil] at h
    exact h rfl
  have hright : (trimLeft t).reverse.dropWhile (·.is isBlank) ≠ [] := List.reverse_ne_nil_iff.1 h
  have hstart : t.trim <+: trimLeft t := trimRight_isPrefix _
  refine ⟨⟨_, List.head?_eq_some_head h, ?_⟩, ?_⟩
  · rw [hstart.head h]
    exact List.head_dropWhile_not _ hleft
  · rw [trim, trimRight, List.getLast?_reverse]
    exact ⟨_, List.head?_eq_some_head hright, List.head_dropWhile_not _ hright⟩

end SchemaDesk.Text
