import SchemaDesk.Proofs.Sql.Abreast
import SchemaDesk.Proofs.Sql.Respaced

/-!
# Tokens of respaced texts

Respaced texts have the same tokens, one by one, but that the bodies of groups are respaced again
(`ends_tokens`).  `Ends` also knows where the tokens stand: before each of them there is a gap in
both texts or in neither, so two tokens touch each other in one text exactly when they do in the
other.
-/

namespace SchemaDesk.Sql

/-- Lexemes that are the same, but that the bodies of groups are respaced. -/
inductive Lexeme.Respaced : Lexeme → Lexeme → Prop where
  | word (w : Text) : Respaced (.word w) (.word w)
  | quoted (n : Text) : Respaced (.quoted n) (.quoted n)
  | literal (v : Text) : Respaced (.literal v) (.literal v)
  | group {b b' : Text} : Sql.Respaced .bare b b' → Respaced (.group b) (.group b')
  | mark (c : CodePoint) : Respaced (.mark c) (.mark c)

theorem Lexeme.Respaced.kin {l l' : Lexeme} (h : l.Respaced l') : l.Kin l' := by
  cases h <;> constructor

/-- Lexemes of two texts, with what they are read from: the same characters, unless they are
groups. -/
structure Respelled (l l' : Lexeme) (w w' : Text) : Prop where
  lexeme : l.Respaced l'
  text : Respaced .bare w w'
  same : w = w' ∨ ∃ b, l = .group b

/-- Blanks in two texts, or nothing in both. -/
structure Gap (g g' : Text) : Prop where
  left : Text.isBlankText g = true
  right : Text.isBlankText g' = true
  nil_iff : g = [] ↔ g' = []

theorem Gap.respaced {g g' t t' : Text} (h : Gap g g') (ht : Respaced .bare t t') :
    Respaced .bare (g ++ t) (g' ++ t') := by
  by_cases hg : g = []
  · rw [hg, h.nil_iff.1 hg]
    exact ht
  · exact .gap ⟨hg, h.left⟩ ⟨mt h.nil_iff.2 hg, h.right⟩ ht

/-- Tokens of two texts, with what is left of the texts before the first of them and the positions
there. -/
inductive Ends : Nat → Nat → Text → Text → List Token → List Token → Prop where
  | nil {p p' : Nat} {g g' : Text} : Gap g g' → Ends p p' g g' [] []
  | cons {p p' : Nat} {g g' w w' t t' : Text} {l l' : Lexeme} {ts us : List Token} :
      Gap g g' → Respelled l l' w w' →
      Ends (p + g.length + w.length) (p' + g'.length + w'.length) t t' ts us →
      Ends p p' (g ++ (w ++ t)) (g' ++ (w' ++ t'))
        (⟨l, p + g.length, p + g.length + w.length⟩ :: ts)
        (⟨l', p' + g'.length, p' + g'.length + w'.length⟩ :: us)

/-! ## Reading tokens -/

section Reading

variable {c : CodePoint} {t t' : Text}

theorem next_of_isWordChar (h : isWordChar c = true) : Quoting.bare.next c = .bare :=
  next_of_isSolidChar (isSolidChar_of_isWordChar h)

theorem Respaced.char_bare (hc : isVisible c = true) (hnext : Quoting.bare.next c = .bare)
    (h : Respaced .bare t t') : Respaced .bare (c :: t) (c :: t') := by
  refine .char (fun _ => hc) ?_
  rw [hnext]
  exact h

/-- A word goes on for the same characters in both texts. -/
theorem Respaced.takeWord {quoting : Quoting} (h : Respaced quoting t t') (hq : quoting = .bare) :
    ∃ w u u', t = w ++ u ∧ t' = w ++ u' ∧ t.takeWhile isWordChar = w ∧
      t'.takeWhile isWordChar = w ∧ Respaced .bare w w ∧ Respaced .bare u u' := by
  induction h with
  | nil => exact ⟨[], [], [], rfl, rfl, rfl, rfl, .nil, .nil⟩
  | @char quoting c t t' hc hrest ih =>
      subst hq
      by_cases hword : isWordChar c = true
      · have hnext := next_of_isWordChar hword
        obtain ⟨w, u, u', rfl, rfl, htake, htake', hw, hu⟩ := ih hnext
        refine ⟨c :: w, u, u', rfl, rfl, ?_, ?_, .char_bare (hc rfl) hnext hw, hu⟩
        · rw [List.takeWhile_cons, if_pos hword, htake]
        · rw [List.takeWhile_cons, if_pos hword, htake']
      · refine ⟨[], c :: t, c :: t', rfl, rfl, ?_, ?_, .nil, .char hc hrest⟩
        · rw [List.takeWhile_cons, if_neg hword]
        · rw [List.takeWhile_cons, if_neg hword]
  | @gap g g' t t' hg hg' hrest _ =>
      have hnone : ∀ {g : Text}, IsBlanks g → ∀ u, (g ++ u).takeWhile isWordChar = [] := by
        intro g hg u
        obtain ⟨d, rest, rfl⟩ := List.exists_cons_of_ne_nil hg.ne_nil
        have hblank := hg.blank
        rw [Text.isBlankText, List.all_cons, Bool.and_eq_true] at hblank
        have hd : ¬isWordChar d = true := by
          intro hd
          rw [isBlank_of_isWordChar hd] at hblank
          exact absurd hblank.1 Bool.false_ne_true
        rw [List.cons_append, List.takeWhile_cons, if_neg hd]
      exact ⟨[], _, _, rfl, rfl, hnone hg t, hnone hg' t', .nil, .gap hg hg' hrest⟩

/-- After one character two texts go on with a token that is the same in both, or a group that is
respaced, and are respaced after it. -/
def LeadAlike (c : CodePoint) (t t' : Text) : Prop :=
  ∃ w w' u u' l l', t = w ++ u ∧ t' = w' ++ u' ∧ Sql.leading c t = (l, w.length) ∧
    Sql.leading c t' = (l', w'.length) ∧ Respelled l l' (c :: w) (c :: w') ∧
    Respaced .bare u u'

theorem Respaced.leading_word (hc : isVisible c = true) (hword : isWordChar c = true)
    (h : Respaced .bare t t') : LeadAlike c t t' := by
  obtain ⟨w, u, u', rfl, rfl, htake, htake', hw, hu⟩ := h.takeWord rfl
  refine ⟨w, w, u, u', .word (c :: w), .word (c :: w), rfl, rfl, ?_, ?_,
    ⟨.word _, .char_bare hc (next_of_isWordChar hword) hw, .inl rfl⟩, hu⟩
  · rw [Sql.leading, if_pos hword, htake]
  · rw [Sql.leading, if_pos hword, htake']

theorem Respaced.leading_run (hc : isVisible c = true) (hword : ¬isWordChar c = true)
    (hquote : isQuote c = true) (h : Respaced (.inside c) t t') : LeadAlike c t t' := by
  have hnext := Quoting.next_of_isQuote hquote
  have hcloser := closer?_of_isQuote hquote
  obtain ⟨run, u, u', rfl, rfl, hrun, hrun', hu, hself⟩ := takeRun hquote h
  have hsame : (quotedLexeme c c run).Respaced (quotedLexeme c c run) := by
    rw [quotedLexeme]
    split
    · exact .literal _
    · exact .quoted _
  refine ⟨run, run, u, u', _, _, rfl, rfl, ?_, ?_,
    ⟨hsame, .char (fun _ => hc) (hnext ▸ hself), .inl rfl⟩, hu⟩
  · rw [Sql.leading, if_neg hword, hcloser]
    simp only [hrun]
  · rw [Sql.leading, if_neg hword, hcloser]
    simp only [hrun']

theorem Respaced.leading_group (h : Respaced .bare t t') : LeadAlike '(' t t' := by
  have hopen : ∀ {u u' : Text}, Respaced .bare u u' → Respaced .bare ('(' :: u) ('(' :: u') :=
    .char_bare (by decide) (by decide)
  obtain ⟨hnone, hnone'⟩ | ⟨b, b', u, u', hb, hb', rfl, rfl, hbody, hu⟩ := h.takeGroup 0
  · -- the group is not closed and reaches to the end of either text
    refine ⟨t, t', [], [], .group t, .group t', by simp, by simp, ?_, ?_,
      ⟨.group h, hopen h, .inr ⟨t, rfl⟩⟩, .nil⟩
    · rw [leading_open, hnone]
      rfl
    · rw [leading_open, hnone']
      rfl
  · have hclose : Respaced .bare [.char ')'] [.char ')'] := .of_bare (by decide)
    refine ⟨b ++ [.char ')'], b' ++ [.char ')'], u, u', .group b, .group b', by simp, by simp,
      ?_, ?_, ⟨.group hbody, hopen (hbody.append hclose), .inr ⟨b, rfl⟩⟩, hu⟩
    · rw [leading_open, hb]
      simp
    · rw [leading_open, hb']
      simp

/-- A token that begins with the same character in both texts is the same, or a group that is
respaced. -/
theorem Respaced.leading (hc : isVisible c = true) (h : Respaced (Quoting.bare.next c) t t') :
    LeadAlike c t t' := by
  by_cases hword : isWordChar c = true
  · rw [next_of_isWordChar hword] at h
    exact h.leading_word hc hword
  by_cases hquote : isQuote c = true
  · rw [Quoting.next_of_isQuote hquote] at h
    exact h.leading_run hc hword hquote
  rw [Bool.not_eq_true] at hquote
  have hnext := Quoting.next_of_not_isQuote hquote
  have hcloser := closer?_eq_none hquote (isVisible_iff.1 hc).2
  rw [hnext] at h
  by_cases hopen : c = '('
  · subst hopen
    exact h.leading_group
  · have hleading : ∀ t : Text, Sql.leading c t = (.mark c, 0) := by
      intro t
      rw [Sql.leading, if_neg hword, hcloser]
      simp only [if_neg hopen]
    exact ⟨[], [], t, t', .mark c, .mark c, rfl, rfl, hleading t, hleading t',
      ⟨.mark c, .char_bare hc hnext .nil, .inl rfl⟩, h⟩

/-- After all blanks at their start respaced texts begin with the same character, or both end. -/
theorem Respaced.split {quoting : Quoting} (h : Respaced quoting t t') (hq : quoting = .bare) :
    ∃ g g' s s', t = g ++ s ∧ t' = g' ++ s' ∧ Gap g g' ∧
      (s = [] ∧ s' = [] ∨ ∃ c r r', s = c :: r ∧ s' = c :: r' ∧ isVisible c = true ∧
        Respaced (Quoting.bare.next c) r r') := by
  induction h with
  | nil => exact ⟨[], [], [], [], rfl, rfl, ⟨rfl, rfl, Iff.rfl⟩, .inl ⟨rfl, rfl⟩⟩
  | @char quoting c t t' hc hrest _ =>
      subst hq
      exact ⟨[], [], c :: t, c :: t', rfl, rfl, ⟨rfl, rfl, Iff.rfl⟩,
        .inr ⟨c, t, t', rfl, rfl, hc rfl, hrest⟩⟩
  | @gap g g' t t' hg hg' _ ih =>
      obtain ⟨h, h', s, s', rfl, rfl, hgap, hs⟩ := ih rfl
      refine ⟨g ++ h, g' ++ h', s, s', by rw [List.append_assoc], by rw [List.append_assoc],
        ⟨?_, ?_, ?_⟩, hs⟩
      · rw [Text.isBlankText, List.all_append, Bool.and_eq_true]
        exact ⟨hg.blank, hgap.left⟩
      · rw [Text.isBlankText, List.all_append, Bool.and_eq_true]
        exact ⟨hg'.blank, hgap.right⟩
      · rw [List.append_eq_nil_iff, List.append_eq_nil_iff]
        exact ⟨fun h => absurd h.1 hg.ne_nil, fun h => absurd h.1 hg'.ne_nil⟩

/-- Blanks are no tokens. -/
theorem tokensFrom_blanks {g : Text} (hg : Text.isBlankText g = true) (u : Text) (position : Nat) :
    tokensFrom position 0 (g ++ u) = tokensFrom (position + g.length) 0 u := by
  induction g generalizing position with
  | nil => rfl
  | cons c g ih =>
      rw [Text.isBlankText, List.all_cons, Bool.and_eq_true] at hg
      rw [List.cons_append, tokensFrom, if_pos hg.1, ih hg.2, List.length_cons]
      congr 1
      omega

/-- The tokens of respaced texts are read in step. -/
theorem Respaced.tokens (h : Respaced .bare t t') (p p' : Nat) :
    Ends p p' t t' (tokensFrom p 0 t) (tokensFrom p' 0 t') := by
  induction hlength : t.length using Nat.strongRecOn generalizing t t' p p' with
  | ind n ih =>
      obtain ⟨g, g', s, s', rfl, rfl, hgap, hs⟩ := h.split rfl
      rw [tokensFrom_blanks hgap.left, tokensFrom_blanks hgap.right]
      obtain ⟨rfl, rfl⟩ | ⟨c, r, r', rfl, rfl, hc, hr⟩ := hs
      · rw [List.append_nil, List.append_nil]
        exact .nil hgap
      · obtain ⟨w, w', u, u', l, l', rfl, rfl, hl, hl', hword, hu⟩ := leading hc hr
        have hblank := (isVisible_iff.1 hc).1
        have htokens := tokensFrom_leading hblank hl (p + g.length)
        have htokens' := tokensFrom_leading hblank hl' (p' + g'.length)
        rw [List.cons_append] at htokens htokens'
        rw [htokens, htokens']
        refine Ends.cons hgap hword (ih u.length ?_ hu _ _ rfl)
        rw [← hlength]
        simp only [List.length_append, List.length_cons]
        omega

end Reading

end SchemaDesk.Sql
