import SchemaDesk.Proofs.Sql.Around

/-!
# Tokens and their spans

The tokens of a text stand in it side by side, with nothing but blanks between them
(`tokenize_spans`).  The span of a token holds what the token is written with (`slice_spelling`):
a word or a mark is the text of its span, and after a word stands no character that could continue
it, so that no two words touch.

All of this follows from where a token comes from: it is what is read at the place where it starts,
as far as that reaches (`exists_leading`).
-/

namespace SchemaDesk.Sql

/-! ## How tokens are written -/

/-- The ways to write a lexeme.  A quoted run or a group may be left open; then nothing in it closes
it. -/
inductive Lexeme.Spelling : Lexeme → Text → Prop where
  | word {w : Text} : w ≠ [] → w.all isWordChar = true → Spelling (.word w) w
  | quoted {opener closer : CodePoint} {run : Text} : closer? opener = some closer →
      opener ≠ '\'' → takeRun closer run = run →
      Spelling (.quoted (undoubled closer (runContents closer run))) (opener :: run)
  | literal {run : Text} : takeRun '\'' run = run →
      Spelling (.literal (literalValue (runContents '\'' run))) (.char '\'' :: run)
  | closedGroup {body : Text} : takeGroup 0 .bare (body ++ [.char ')']) = some body →
      Spelling (.group body) (parenthesized body)
  | openGroup {body : Text} : takeGroup 0 .bare body = none →
      Spelling (.group body) (.char '(' :: body)
  | mark {c : CodePoint} : isWordChar c = false → c.is Text.isBlank = false → closer? c = none →
      c ≠ '(' → Spelling (.mark c) [c]

/-- What is read at the start of a text is written there. -/
theorem leading_spelling {c : CodePoint} (hblank : c.is Text.isBlank = false) (rest : Text) :
    (leading c rest).1.Spelling (c :: rest.take (leading c rest).2) := by
  rw [leading]
  split
  · next hword =>
      rw [← List.prefix_iff_eq_take.1 (List.takeWhile_prefix isWordChar)]
      refine .word (List.cons_ne_nil _ _) ?_
      rw [List.all_cons, hword, Bool.true_and]
      exact List.all_takeWhile
  next hword =>
  split
  · next closer hcloser =>
      have hrun : takeRun closer (takeRun closer rest ++ []) = takeRun closer rest :=
        takeRun_takeRun (by simp) fun _ => rfl
      rw [List.append_nil] at hrun
      show (quotedLexeme c closer (takeRun closer rest)).Spelling _
      rw [← List.prefix_iff_eq_take.1 (takeRun_isPrefix closer rest), quotedLexeme]
      split
      · next hliteral =>
          subst hliteral
          cases hcloser
          exact .literal hrun
      · next hname => exact .quoted hcloser hname hrun
  next hcloser =>
  split
  · next hopen =>
      subst hopen
      split
      · next body hbody =>
          have hclosed := takeGroup_takeGroup hbody
          obtain ⟨later, rfl⟩ := takeGroup_prefix hbody
          rw [List.take_length_add_append]
          exact .closedGroup hclosed
      · next hbody =>
          rw [List.take_length]
          exact .openGroup hbody
  · next hopen => exact .mark (Bool.eq_false_iff.2 hword) hblank hcloser hopen

/-- A word or a mark is written as itself, without blanks. -/
theorem Lexeme.Spelling.bare {l : Lexeme} {t w : Text} (h : l.Spelling t)
    (hbare : l = .word w ∨ ∃ c, l = .mark c ∧ w = [c]) :
    t = w ∧ ∀ c ∈ w, c.is Text.isBlank = false := by
  obtain rfl | ⟨c, rfl, rfl⟩ := hbare
  · cases h with
    | word hne hall =>
        exact ⟨rfl, fun c hc => isBlank_of_isWordChar (List.all_eq_true.1 hall c hc)⟩
  · cases h with
    | mark hword hblank hcloser hopen => exact ⟨rfl, by simpa using hblank⟩

/-! ## Spans -/

/-- Whether a position belongs to a token. -/
def Token.Covers (x : Token) (i : Nat) : Prop :=
  x.start ≤ i ∧ i < x.stop

section Spans

variable {position skip i : Nat} {t w v body : Text} {c : CodePoint} {x y : Token}

/-- A token is written in its span. -/
theorem slice_spelling (hx : x ∈ tokenize t) : x.lexeme.Spelling (slice t x.start x.stop) := by
  obtain ⟨before, c, rest, rfl, hblank, rfl⟩ := exists_leading hx
  have hslice := slice_middle before (c :: rest.take (leading c rest).2)
    (rest.drop (leading c rest).2)
  rw [List.cons_append, List.take_append_drop, List.length_cons, List.length_take,
    Nat.min_eq_left (leading_width_le c rest), Nat.add_comm _ 1, ← Nat.add_assoc] at hslice
  rw [Nat.zero_add, hslice]
  exact leading_spelling hblank rest

/-- A group stands inside its token. -/
theorem group_stop (hx : x ∈ tokenize t) (hgroup : x.lexeme = .group body) :
    x.start + 1 + body.length ≤ x.stop := by
  have hspelling := slice_spelling hx
  have hlength : (slice t x.start x.stop).length ≤ x.stop - x.start := List.length_take_le _ _
  rw [hgroup] at hspelling
  generalize slice t x.start x.stop = u at hspelling hlength
  cases hspelling with
  | closedGroup hbody =>
      simp only [parenthesized, List.length_cons, List.length_append] at hlength
      omega
  | openGroup hbody =>
      rw [List.length_cons] at hlength
      omega

/-- A bare word has characters, and only such as belong to words. -/
theorem word_spelling (hx : x ∈ tokenize t) (hw : x.lexeme = .word w) :
    w ≠ [] ∧ w.all isWordChar = true := by
  have hspelling := slice_spelling hx
  rw [hw] at hspelling
  generalize slice t x.start x.stop = u at hspelling
  cases hspelling with
  | word hne hall => exact ⟨hne, hall⟩

/-- A word goes from its first character to where no character continues it. -/
theorem word_extent (hx : x ∈ tokenize t) (hw : x.lexeme = .word w) :
    t[x.start]?.any isWordChar = true ∧ t[x.stop]?.any isWordChar = false := by
  obtain ⟨before, c, rest, rfl, hblank, rfl⟩ := exists_leading hx
  dsimp only at hw ⊢
  have hspelling := leading_spelling hblank rest
  rw [hw] at hspelling
  have hword : isWordChar c = true := by
    cases hspelling with
    | word hne hall =>
        rw [List.all_cons, Bool.and_eq_true] at hall
        exact hall.1
  have hwidth : (leading c rest).2 = (rest.takeWhile isWordChar).length := by
    rw [leading, if_pos hword]
  have hrest : rest.drop (leading c rest).2 = rest.dropWhile isWordChar := by
    rw [hwidth]
    nth_rewrite 2 [← List.takeWhile_append_dropWhile (p := isWordChar) (l := rest)]
    exact List.drop_left
  rw [Nat.zero_add, ← List.head?_drop, ← List.head?_drop, List.drop_left, Nat.add_assoc,
    List.drop_length_add_append, Nat.add_comm 1, List.drop_succ_cons, hrest]
  refine ⟨hword, ?_⟩
  have hnext := List.head?_dropWhile_not isWordChar rest
  cases hhead : (rest.dropWhile isWordChar).head? with
  | none => rfl
  | some d =>
      rw [hhead] at hnext
      exact hnext

/-- What no token covers is blank. -/
theorem isBlank_of_uncovered (hskip : skip ≤ i) (hc : t[i]? = some c)
    (h : ∀ x ∈ tokensFrom position skip t, ¬x.Covers (position + i)) :
    c.is Text.isBlank = true := by
  induction t generalizing position skip i with
  | nil => cases hc
  | cons d rest ih =>
      have hlater : ∀ {skip j : Nat}, i = j + 1 → skip ≤ j →
          (∀ x ∈ tokensFrom (position + 1) skip rest, ¬x.Covers (position + i)) →
          c.is Text.isBlank = true := by
        rintro skip j rfl hskip h
        rw [Nat.add_comm j, ← Nat.add_assoc] at h
        exact ih hskip hc h
      cases i with
      | zero =>
          obtain rfl := Nat.le_zero.1 hskip
          cases hc
          rw [tokensFrom] at h
          split at h
          · assumption
          · rw [List.forall_mem_cons] at h
            exact absurd ⟨Nat.le_refl _, by simp; omega⟩ h.1
      | succ j =>
          cases skip with
          | succ skip => exact hlater rfl (Nat.le_of_succ_le_succ hskip) h
          | zero =>
              rw [tokensFrom] at h
              split at h
              · exact hlater rfl (Nat.zero_le _) h
              · rw [List.forall_mem_cons] at h
                -- the position lies behind the token that begins here
                refine hlater rfl ?_ h.2
                have hfirst := h.1
                simp only [Token.Covers] at hfirst
                omega

/-- Words do not touch. -/
theorem word_apart (hx : x ∈ tokenize t) (hy : y ∈ tokenize t) (hw : x.lexeme = .word w)
    (hv : y.lexeme = .word v) : x.stop ≠ y.start := by
  intro htouch
  have hafter := (word_extent hx hw).2
  rw [htouch, (word_extent hy hv).1] at hafter
  cases hafter

end Spans

/-- The tokens of a text are spans of it that are not empty, one after the other, and what stands
outside them is blank.  Every token is written in its span, and a word or a mark is its span, which
has no blank in it.  Words do not touch each other. -/
theorem tokenize_spans (t : Text) :
    (∀ x ∈ tokenize t, x.start < x.stop ∧ x.stop ≤ t.length) ∧
    (tokenize t).Pairwise (fun x y => x.stop ≤ y.start) ∧
    (∀ i c, t[i]? = some c → (∀ x ∈ tokenize t, ¬x.Covers i) → c.is Text.isBlank = true) ∧
    (∀ x ∈ tokenize t, x.lexeme.Spelling (slice t x.start x.stop)) ∧
    (∀ x ∈ tokenize t, ∀ w, (x.lexeme = .word w ∨ ∃ c, x.lexeme = .mark c ∧ w = [c]) →
      slice t x.start x.stop = w ∧ ∀ c ∈ w, c.is Text.isBlank = false) ∧
    ∀ x ∈ tokenize t, ∀ y ∈ tokenize t, ∀ w v, x.lexeme = .word w → y.lexeme = .word v →
      x.stop ≠ y.start := by
  obtain ⟨hbounds, hsorted⟩ := tokensFrom_sorted 0 0 t
  refine ⟨fun x hx => ?_, hsorted, fun i c hc h => ?_, fun x hx => slice_spelling hx,
    fun x hx w hw => (slice_spelling hx).bare hw, fun x hx y hy w v hw hv => word_apart hx hy hw hv⟩
  · have hx := hbounds x hx
    omega
  · have huncovered : ∀ x ∈ tokensFrom 0 0 t, ¬x.Covers (0 + i) := by rwa [Nat.zero_add]
    exact isBlank_of_uncovered (Nat.zero_le i) hc huncovered

example : tokenize "a (b 'c\\" = [⟨.word "a", 0, 1⟩, ⟨.group "b 'c\\", 2, 8⟩] := by
  decide +kernel

end SchemaDesk.Sql
