import SchemaDesk.Proofs.Number.Digits
import SchemaDesk.Proofs.Sql.Pieces

/-!
# Words and items

Legible pieces that begin and end with tokens are an item (`Legible.isItem`), so lists of written
names, literals and numbers are split again where they were joined.  Most of what is written besides
is words, each after a space.
-/

namespace SchemaDesk.Sql

/-! ## Words -/

/-- Words with a space before each of them. -/
def wordsOf (ws : List Text) : List Piece :=
  ws.flatMap fun w => [.gap ' ', .word w]

theorem wordsOf_getLast? (ws : List Text) :
    (wordsOf ws).getLast? = ws.getLast?.map Piece.word := by
  induction ws with
  | nil => rfl
  | cons w ws ih =>
      show ([Piece.gap ' ', Piece.word w] ++ wordsOf ws).getLast? = _
      rw [List.getLast?_append, ih]
      cases ws with
      | nil => rfl
      | cons v ws => simp [List.getLast?_eq_some_getLast]

/-- A word is read before anything that does not continue it. -/
theorem reads_word {w : Text} (hne : w ≠ []) (hall : w.all isWordChar = true)
    {next : Option CodePoint} (hnext : next.any isWordChar = false) :
    (Piece.word w).reads next = true := by
  have hempty : w.isEmpty = false := List.isEmpty_eq_false_iff.2 hne
  rw [Piece.reads, hempty, hall, hnext]
  rfl

/-- Words are legible before anything that does not continue the last one. -/
theorem wordsOf_legible {ws : List Text} (h : ∀ w ∈ ws, w ≠ [] ∧ w.all isWordChar = true)
    {next : Option CodePoint} (hnext : next.any isWordChar = false) :
    Legible next (wordsOf ws) := by
  induction ws with
  | nil => exact .nil
  | cons w ws ih =>
      have hw := h w List.mem_cons_self
      have hhead : ((textOf (wordsOf ws)).head?.or next).any isWordChar = false := by
        cases ws with
        | nil => exact hnext
        | cons v ws => rfl
      refine .cons rfl (fun _ hgroup => by cases hgroup) (.cons ?_ (fun _ hgroup => by cases hgroup)
        (ih fun v hv => h v (List.mem_cons_of_mem _ hv)))
      exact reads_word hw.1 hw.2 hhead

theorem mem_spell_wordsOf {position : Nat} {ws : List Text} {t : Token}
    (h : t ∈ spell position (wordsOf ws)) : ∃ w ∈ ws, t.lexeme = .word w := by
  induction ws generalizing position with
  | nil => cases h
  | cons w ws ih =>
      have hspell : spell position (wordsOf (w :: ws)) =
          ⟨.word w, position + 1, position + 1 + w.length⟩ ::
            spell (position + 1 + w.length) (wordsOf ws) := rfl
      rw [hspell, List.mem_cons] at h
      rcases h with rfl | h
      · exact ⟨w, List.mem_cons_self, rfl⟩
      · obtain ⟨v, hv, hlexeme⟩ := ih h
        exact ⟨v, List.mem_cons_of_mem _ hv, hlexeme⟩

/-! ## Items -/

/-- A text in quotes has no blanks at its ends. -/
theorem trimmed_enclosed (first last : CodePoint) (hfirst : first.is Text.isBlank = false)
    (hlast : last.is Text.isBlank = false) (t : Text) :
    Text.Trimmed (first :: (t ++ [last])) := by
  refine ⟨⟨first, rfl, hfirst⟩, ⟨last, ?_, hlast⟩⟩
  rw [← List.cons_append, List.getLast?_append]
  rfl

/-- A text of word characters has no blanks at its ends. -/
theorem trimmed_word {w : Text} (hne : w ≠ []) (hall : w.all isWordChar = true) : w.Trimmed := by
  have hword : ∀ c ∈ w, c.is Text.isBlank = false := fun c hc =>
    isBlank_of_isWordChar (List.all_eq_true.1 hall c hc)
  obtain ⟨c, hc⟩ := Option.ne_none_iff_exists'.1 (mt List.head?_eq_none_iff.1 hne)
  obtain ⟨d, hd⟩ := Option.ne_none_iff_exists'.1 (mt List.getLast?_eq_none_iff.1 hne)
  exact ⟨⟨c, hc, hword c (List.mem_of_head? hc)⟩, ⟨d, hd, hword d (List.mem_of_getLast? hd)⟩⟩

/-- A piece that is read as a token has no blanks at its ends. -/
theorem Piece.trimmed {p : Piece} {next : Option CodePoint} (h : p.reads next = true)
    (htoken : p.lexeme?.isSome = true) : p.text.Trimmed := by
  cases p with
  | gap c => cases htoken
  | word w =>
      simp only [Piece.reads, Bool.and_eq_true, Bool.not_eq_true', List.isEmpty_eq_false_iff] at h
      exact trimmed_word h.1.1 h.1.2
  | name quote n =>
      simp only [Piece.reads, Bool.and_eq_true, Bool.or_eq_true, decide_eq_true_eq] at h
      have hblank : quote.is Text.isBlank = false := by
        rcases h.1 with rfl | rfl <;> decide
      exact trimmed_enclosed quote quote hblank hblank _
  | literal v => exact trimmed_enclosed '\'' '\'' (by decide) (by decide) _
  | group body => exact trimmed_enclosed '(' ')' (by decide) (by decide) _
  | mark c =>
      simp only [Piece.reads, Bool.and_eq_true, Bool.not_eq_true'] at h
      exact ⟨⟨c, rfl, h.1.1.2⟩, ⟨c, rfl, h.1.1.2⟩⟩

/-- Legible pieces that begin and end with tokens are an item. -/
theorem Legible.isItem {p q : Piece} {ps : List Piece} {next : Option CodePoint}
    (h : Legible next (p :: ps)) (hp : p.lexeme?.isSome = true)
    (hlast : (p :: ps).getLast? = some q) (hq : q.lexeme?.isSome = true) :
    IsItem (textOf (p :: ps)) := by
  refine ⟨h.solid, ?_, ?_⟩
  · have hreads := h.reads
    rw [readsBefore, Bool.and_eq_true] at hreads
    obtain ⟨c, hc, hblank⟩ := (Piece.trimmed hreads.1 hp).first
    exact ⟨c, by rw [textOf_cons, List.head?_append, hc]; rfl, hblank⟩
  · -- the last piece is read as itself too, since the later ones of legible pieces are legible
    obtain ⟨init, hinit⟩ := List.getLast?_eq_some_iff.1 hlast
    have hreads : ∀ {ps : List Piece}, Legible next (ps ++ [q]) → q.reads next = true := by
      intro ps hps
      induction ps with
      | nil =>
          have hlegible := hps.reads
          rw [List.nil_append, readsBefore, Bool.and_eq_true] at hlegible
          exact hlegible.1
      | cons r ps ih => exact ih hps.tail
    rw [hinit] at h ⊢
    obtain ⟨c, hc, hblank⟩ := (Piece.trimmed (hreads h) hq).last
    refine ⟨c, ?_, hblank⟩
    rw [textOf_append, List.getLast?_append]
    simp [textOf, hc]

theorem isItem_quoteName {quote : CodePoint} (hquote : quote = '"' ∨ quote = '`') (n : Text) :
    IsItem (quoteName quote n) := by
  have hlegible : Legible none [.name quote n] :=
    ⟨by rcases hquote with rfl | rfl <;> rfl, fun _ h => by simp at h⟩
  have hitem := hlegible.isItem rfl rfl rfl
  rwa [textOf_cons, textOf_nil, List.append_nil] at hitem

theorem isItem_quoteLiteral (v : Text) : IsItem (quoteLiteral v) := by
  have hlegible : Legible none [.literal v] := ⟨rfl, fun _ h => by simp at h⟩
  have hitem := hlegible.isItem rfl rfl rfl
  rwa [textOf_cons, textOf_nil, List.append_nil] at hitem

/-- The digits of a number are an item. -/
theorem isItem_digits (n : Nat) : IsItem (Text.ofChars (Nat.toDigits 10 n)) := by
  have hall : (Text.ofChars (Nat.toDigits 10 n)).all isWordChar = true := by
    rw [List.all_eq_true]
    intro c hc
    obtain ⟨d, hd, rfl⟩ := List.mem_map.1 hc
    exact isDigit_cases (motive := fun d => isWordChar (.char d) = true) (by decide)
      (Nat.isDigit_of_mem_toDigits (by decide) (by decide) hd)
  have hne : Text.ofChars (Nat.toDigits 10 n) ≠ [] := by
    rw [Text.ofChars, ne_eq, List.map_eq_nil_iff]
    exact Nat.toDigits_ne_nil
  refine ⟨.of_all (List.all_eq_true.2 fun c hc => ?_), trimmed_word hne hall⟩
  exact isSolidChar_of_isWordChar (List.all_eq_true.1 hall c hc)

end SchemaDesk.Sql
