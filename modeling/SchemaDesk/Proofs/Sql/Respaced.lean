import Mathlib.Data.List.Forall2
import SchemaDesk.Proofs.Sql.Extent

/-!
# Texts that differ in their blanks

Two texts are `Respaced` when they are the same but for blanks outside quotes: where one has some
blanks the other has some, perhaps others.  All scanners respect this.  Runs are the same, groups
and items are respaced again, and a text on one line is the same whichever blanks it had.

Tokens are read from respaced texts in step (`ends_tokens`).  They have the same lexemes, but that
the bodies of groups are respaced; and two of them touch each other in one text exactly when they do
in the other.
-/

namespace SchemaDesk.Sql

/-- Some blanks. -/
structure IsBlanks (g : Text) : Prop where
  ne_nil : g ≠ []
  blank : Text.isBlankText g = true

/-- A character that is read as part of a token wherever it stands outside quotes. -/
def isVisible (c : CodePoint) : Bool :=
  !c.is Text.isBlank && c ≠ '['

/-- A scanner stands in quotes that no blank closes. -/
def Quoting.Proper (quoting : Quoting) : Prop :=
  ∀ closer, quoting = .inside closer → closer.is Text.isBlank = false

theorem Quoting.Proper.next {quoting : Quoting} (h : quoting.Proper) (c : CodePoint) :
    (quoting.next c).Proper := by
  rintro closer hcloser
  cases quoting with
  | bare =>
      rw [Quoting.next] at hcloser
      split at hcloser
      · next hquote =>
          cases hcloser
          exact isBlank_of_closer? (closer?_of_isQuote hquote)
      · cases hcloser
  | escaped =>
      cases hcloser
      decide
  | inside closer' =>
      rw [Quoting.next] at hcloser
      split at hcloser
      · cases hcloser
      split at hcloser
      · cases hcloser
      · cases hcloser
        exact h closer rfl

/-- Texts that are the same but for blanks outside quotes, and that end outside quotes. -/
inductive Respaced : Quoting → Text → Text → Prop where
  | nil : Respaced .bare [] []
  | char {quoting : Quoting} {c : CodePoint} {t t' : Text} :
      (quoting = .bare → isVisible c = true) → Respaced (quoting.next c) t t' →
      Respaced quoting (c :: t) (c :: t')
  | gap {g g' t t' : Text} : IsBlanks g → IsBlanks g' → Respaced .bare t t' →
      Respaced .bare (g ++ t) (g' ++ t')

namespace Respaced

variable {quoting : Quoting} {c : CodePoint} {t t' u u' : Text}

theorem symm (h : Respaced quoting t t') : Respaced quoting t' t := by
  induction h with
  | nil => exact .nil
  | char hc _ ih => exact .char hc ih
  | gap hg hg' _ ih => exact .gap hg' hg ih

theorem append (h : Respaced quoting t t') (h' : Respaced .bare u u') :
    Respaced quoting (t ++ u) (t' ++ u') := by
  induction h with
  | nil => exact h'
  | char hc _ ih => exact .char hc ih
  | gap hg hg' _ ih =>
      rw [List.append_assoc, List.append_assoc]
      exact .gap hg hg' ih

theorem isVisible_iff : isVisible c = true ↔ c.is Text.isBlank = false ∧ c ≠ '[' := by
  rw [isVisible, Bool.and_eq_true, Bool.not_eq_true', decide_eq_true_eq]

/-- Only the empty text is a respaced empty text. -/
theorem nil_left (h : Respaced quoting [] t') : quoting = .bare ∧ t' = [] := by
  generalize ht : ([] : Text) = t at h
  cases h with
  | nil => exact ⟨rfl, rfl⟩
  | char => cases ht
  | gap hg => exact absurd (List.append_eq_nil_iff.1 ht.symm).1 hg.ne_nil

theorem eq_nil_iff (h : Respaced quoting t t') : t = [] ↔ t' = [] := by
  constructor
  · rintro rfl
    exact h.nil_left.2
  · rintro rfl
    exact h.symm.nil_left.2

/-- Inside quotes there are no gaps. -/
theorem inside (h : Respaced quoting t t') (hq : quoting ≠ .bare) :
    ∃ c s s', t = c :: s ∧ t' = c :: s' ∧ Respaced (quoting.next c) s s' := by
  cases h with
  | nil => exact absurd rfl hq
  | char _ h => exact ⟨_, _, _, rfl, rfl, h⟩
  | gap => exact absurd rfl hq

/-- Texts without blanks are respaced only if they are the same. -/
theorem eq_of_solid (h : Respaced quoting t t') (hsolid : ∀ c ∈ t, c.is Text.isBlank = false) :
    t = t' := by
  induction h with
  | nil => rfl
  | char _ _ ih => rw [ih fun c hc => hsolid c (List.mem_cons_of_mem _ hc)]
  | @gap g g' t t' hg _ _ _ =>
      obtain ⟨c, rest, rfl⟩ := List.exists_cons_of_ne_nil hg.ne_nil
      have hblank := hg.blank
      rw [Text.isBlankText, List.all_cons, hsolid c (by simp)] at hblank
      cases hblank

/-- Characters that are visible and open no quotes are respaced as they are. -/
theorem of_bare (h : ∀ c ∈ t, isVisible c = true ∧ isQuote c = false) : Respaced .bare t t := by
  induction t with
  | nil => exact .nil
  | cons c t ih =>
      rw [List.forall_mem_cons] at h
      refine .char (fun _ => h.1.1) ?_
      rw [Quoting.next_of_not_isQuote h.1.2]
      exact ih h.2

/-- What stands in quotes is respaced as it is. -/
theorem of_stays (h : quoting.stays t = true) (hafter : quoting.after t = .bare) :
    Respaced quoting t t := by
  induction t generalizing quoting with
  | nil =>
      obtain rfl : quoting = .bare := hafter
      exact .nil
  | cons c t ih =>
      rw [Quoting.stays, Bool.and_eq_true] at h
      refine .char (fun hbare => ?_) (ih h.2 hafter)
      have hquote : isQuote c = true := by simpa [hbare] using h.1
      rw [isQuote, Bool.or_eq_true, Bool.or_eq_true, decide_eq_true_eq, decide_eq_true_eq,
        decide_eq_true_eq] at hquote
      rcases hquote with (rfl | rfl) | rfl <;> decide

/-! ## Runs and groups -/

/-- At the start of respaced texts outside quotes the same character stands, or there are blanks in
both. -/
theorem head_cases (h : Respaced .bare t t') :
    (t = [] ∧ t' = []) ∨
      (∃ c s s', t = c :: s ∧ t' = c :: s' ∧ isVisible c = true ∧
        Respaced (Quoting.bare.next c) s s') ∨
      ∃ g g' s s', t = g ++ s ∧ t' = g' ++ s' ∧ IsBlanks g ∧ IsBlanks g' ∧
        Respaced .bare s s' := by
  cases h with
  | nil => exact .inl ⟨rfl, rfl⟩
  | char hc h => exact .inr (.inl ⟨_, _, _, rfl, rfl, hc rfl, h⟩)
  | gap hg hg' h => exact .inr (.inr ⟨_, _, _, _, rfl, rfl, hg, hg', h⟩)

theorem head_blanks {g : Text} (hg : IsBlanks g) (s : Text) :
    ∃ c, (g ++ s).head? = some c ∧ c.is Text.isBlank = true := by
  obtain ⟨c, rest, rfl⟩ := List.exists_cons_of_ne_nil hg.ne_nil
  have hblank := hg.blank
  rw [Text.isBlankText, List.all_cons, Bool.and_eq_true] at hblank
  exact ⟨c, rfl, hblank.1⟩

/-- A character that is no blank stands at the start of both texts or of neither. -/
theorem head?_iff (h : Respaced .bare t t') (hc : c.is Text.isBlank = false) :
    t.head? = some c ↔ t'.head? = some c := by
  have hgap : ∀ {g : Text}, IsBlanks g → ∀ s : Text, (g ++ s).head? ≠ some c := by
    intro g hg s hhead
    obtain ⟨d, hd, hblank⟩ := head_blanks hg s
    rw [hd] at hhead
    cases hhead
    rw [hc] at hblank
    cases hblank
  obtain ⟨rfl, rfl⟩ | ⟨d, s, s', rfl, rfl, -, -⟩ | ⟨g, g', s, s', rfl, rfl, hg, hg', -⟩ :=
    h.head_cases
  · exact Iff.rfl
  · exact Iff.rfl
  · exact ⟨fun hhead => absurd hhead (hgap hg s), fun hhead => absurd hhead (hgap hg' s')⟩

/-- After a character that is no blank the texts are respaced again. -/
theorem of_cons (h : Respaced .bare (c :: t) (c :: t')) (hc : c.is Text.isBlank = false) :
    Respaced (Quoting.bare.next c) t t' := by
  obtain ⟨ht, -⟩ | ⟨d, s, s', ht, ht', -, hs⟩ | ⟨g, g', s, s', ht, -, hg, -, -⟩ := h.head_cases
  · cases ht
  · cases ht
    cases ht'
    exact hs
  · obtain ⟨d, hd, hblank⟩ := head_blanks hg s
    rw [← ht] at hd
    cases hd
    rw [hc] at hblank
    cases hblank

/-- Two texts begin inside quotes with the same run, and are respaced where it is closed. -/
def SharesRun (closer : CodePoint) (t t' : Text) : Prop :=
  ∃ run u u', t = run ++ u ∧ t' = run ++ u' ∧ Sql.takeRun closer t = run ∧
    Sql.takeRun closer t' = run ∧ (Quoting.inside closer).after run = .bare ∧
    Respaced .bare u u'

/-- The run goes on over characters that the scanner passes in both texts alike. -/
theorem SharesRun.extend {closer : CodePoint} {w : Text} (h : SharesRun closer t t')
    (hread : ∀ s, Sql.takeRun closer (w ++ s) = w ++ Sql.takeRun closer s)
    (hafter : (Quoting.inside closer).after w = .inside closer) :
    SharesRun closer (w ++ t) (w ++ t') := by
  obtain ⟨run, u, u', rfl, rfl, hrun, hrun', hclosed, hu⟩ := h
  refine ⟨w ++ run, u, u', ?_, ?_, ?_, ?_, ?_, hu⟩
  · rw [List.append_assoc]
  · rw [List.append_assoc]
  · rw [hread, hrun]
  · rw [hread, hrun']
  · rw [Quoting.after_append, hafter, hclosed]

/-- The run ends at its quote unless the same quote follows. -/
theorem SharesRun.close {closer : CodePoint} (h : Respaced .bare t t')
    (hblank : closer.is Text.isBlank = false) (ht : t.head? ≠ some closer) :
    SharesRun closer (closer :: t) (closer :: t') := by
  have ht' : t'.head? ≠ some closer := fun hhead => ht ((h.head?_iff hblank).2 hhead)
  exact ⟨[closer], t, t', rfl, rfl, takeRun_close (escapes_self closer) ht,
    takeRun_close (escapes_self closer) ht', next_closer closer, h⟩

theorem sharesRun {closer : CodePoint} (hquote : isQuote closer = true)
    (h : Respaced (.inside closer) t t') : SharesRun closer t t' := by
  have hopen := Quoting.next_of_isQuote hquote
  have hblank := isBlank_of_closer? (closer?_of_isQuote hquote)
  -- on the length, since two characters are read at once after a backslash and at a doubled quote
  induction hlength : t.length using Nat.strongRecOn generalizing t t' with
  | ind n ih =>
      obtain ⟨d, s, s', rfl, rfl, hs⟩ := h.inside (by simp)
      rw [List.length_cons] at hlength
      by_cases hescape : d = '\\' ∧ closer = '\''
      · obtain ⟨rfl, rfl⟩ := hescape
        obtain ⟨e, r, r', rfl, rfl, hr⟩ := hs.inside (by decide)
        rw [List.length_cons] at hlength
        exact (ih r.length (by omega) hr rfl).extend (w := [.char '\\', e]) (fun _ => rfl) rfl
      have hesc : escapes closer d = false := by simpa [escapes] using hescape
      by_cases hclose : d = closer
      · subst hclose
        rw [next_closer] at hs
        by_cases hdouble : s.head? = some d
        · obtain ⟨r, rfl⟩ := List.head?_eq_some_iff.1 hdouble
          obtain ⟨r', rfl⟩ := List.head?_eq_some_iff.1 ((hs.head?_iff hblank).1 hdouble)
          have hr := hs.of_cons hblank
          rw [hopen] at hr
          rw [List.length_cons] at hlength
          refine (ih r.length (by omega) hr rfl).extend (w := [d, d]) (fun u => ?_) ?_
          · show Sql.takeRun d (d :: d :: u) = d :: d :: Sql.takeRun d u
            rw [Sql.takeRun, hesc, if_neg Bool.false_ne_true, if_pos rfl, if_pos rfl]
          · rw [Quoting.after_cons, Quoting.after_cons, next_closer, hopen, Quoting.after_nil]
        · exact .close hs hblank hdouble
      · have hnext : (Quoting.inside closer).next d = .inside closer := by
          rw [Quoting.next, if_neg hescape, if_neg hclose]
        rw [hnext] at hs
        exact (ih s.length (by omega) hs rfl).extend (w := [d]) (takeRun_cons hesc hclose) hnext

/-- A quoted run is the same in both texts. -/
theorem takeRun {closer : CodePoint} (hquote : isQuote closer = true)
    (h : Respaced (.inside closer) t t') :
    ∃ run u u', t = run ++ u ∧ t' = run ++ u' ∧ Sql.takeRun closer t = run ∧
      Sql.takeRun closer t' = run ∧ Respaced .bare u u' ∧ Respaced (.inside closer) run run := by
  obtain ⟨run, u, u', ht, ht', hrun, hrun', hclosed, hu⟩ := h.sharesRun hquote
  have hstays : (Quoting.inside closer).stays run = true := hrun ▸ stays_takeRun hquote t
  exact ⟨run, u, u', ht, ht', hrun, hrun', hu, .of_stays hstays hclosed⟩

/-- A parenthesis that closes a group stands in the same place in both texts. -/
theorem takeGroup (h : Respaced quoting t t') (depth : Nat) :
    (Sql.takeGroup depth quoting t = none ∧ Sql.takeGroup depth quoting t' = none) ∨
      ∃ b b' u u', Sql.takeGroup depth quoting t = some b ∧
        Sql.takeGroup depth quoting t' = some b' ∧ t = b ++ .char ')' :: u ∧
        t' = b' ++ .char ')' :: u' ∧ Respaced quoting b b' ∧ Respaced .bare u u' := by
  induction h generalizing depth with
  | nil => exact .inl ⟨rfl, rfl⟩
  | @char quoting c t t' hc hrest ih =>
      by_cases hclose : quoting = .bare ∧ c = ')'
      · obtain ⟨rfl, rfl⟩ := hclose
        cases depth with
        | zero => exact .inr ⟨[], [], t, t', by simp [Sql.takeGroup], by simp [Sql.takeGroup], rfl,
            rfl, .nil, hrest⟩
        | succ depth =>
            rw [takeGroup_close, takeGroup_close]
            obtain ⟨hn, hn'⟩ | ⟨b, b', u, u', hb, hb', rfl, rfl, hbody, hu⟩ := ih depth
            · exact .inl ⟨by rw [show Sql.takeGroup depth .bare t = none from hn]; rfl,
                by rw [show Sql.takeGroup depth .bare t' = none from hn']; rfl⟩
            · exact .inr ⟨_, _, u, u', Option.map_eq_some_iff.2 ⟨b, hb, rfl⟩,
                Option.map_eq_some_iff.2 ⟨b', hb', rfl⟩, rfl, rfl, .char hc hbody, hu⟩
      · rw [takeGroup_cons hclose, takeGroup_cons hclose]
        obtain ⟨hn, hn'⟩ | ⟨b, b', u, u', hb, hb', rfl, rfl, hbody, hu⟩ :=
          ih (if quoting = .bare ∧ c = '(' then depth + 1 else depth)
        · exact .inl ⟨by rw [hn]; rfl, by rw [hn']; rfl⟩
        · exact .inr ⟨_, _, u, u', Option.map_eq_some_iff.2 ⟨b, hb, rfl⟩,
            Option.map_eq_some_iff.2 ⟨b', hb', rfl⟩, rfl, rfl, .char hc hbody, hu⟩
  | @gap g g' t t' hg hg' hrest ih =>
      have hpass := (Solid.of_blank hg.blank).grouped depth t
      have hpass' := (Solid.of_blank hg'.blank).grouped depth t'
      rw [hpass, hpass']
      obtain ⟨hn, hn'⟩ | ⟨b, b', u, u', hb, hb', rfl, rfl, hbody, hu⟩ := ih depth
      · exact .inl ⟨by rw [hn]; rfl, by rw [hn']; rfl⟩
      · refine .inr ⟨_, _, u, u', Option.map_eq_some_iff.2 ⟨b, hb, rfl⟩,
          Option.map_eq_some_iff.2 ⟨b', hb', rfl⟩, ?_, ?_, .gap hg hg' hbody, hu⟩
        · rw [List.append_assoc]
        · rw [List.append_assoc]

/-! ## Items -/

/-- Commas separate in both texts alike. -/
theorem piecesFrom (h : Respaced quoting t t') (depth : Nat) :
    Respaced quoting (Sql.piecesFrom depth quoting t).1 (Sql.piecesFrom depth quoting t').1 ∧
      List.Forall₂ (Respaced .bare) (Sql.piecesFrom depth quoting t).2
        (Sql.piecesFrom depth quoting t').2 := by
  induction h generalizing depth with
  | nil => exact ⟨.nil, .nil⟩
  | @char quoting c t t' hc _ ih =>
      by_cases hcomma : quoting = .bare ∧ c = ',' ∧ depth = 0
      · obtain ⟨rfl, rfl, rfl⟩ := hcomma
        obtain ⟨hfirst, hlater⟩ := ih 0
        simp only [Sql.piecesFrom, and_self, if_true]
        exact ⟨.nil, .cons hfirst hlater⟩
      · obtain ⟨hfirst, hlater⟩ := ih (if quoting = .bare then depthAfter depth c else depth)
        rw [piecesFrom_cons hcomma, piecesFrom_cons hcomma]
        exact ⟨.char hc hfirst, hlater⟩
  | @gap g g' t t' hg hg' _ ih =>
      obtain ⟨hfirst, hlater⟩ := ih depth
      rw [(Solid.of_blank hg.blank).whole, (Solid.of_blank hg'.blank).whole]
      exact ⟨.gap hg hg' hfirst, hlater⟩

theorem trimLeft (h : Respaced .bare t t') : Respaced .bare t.trimLeft t'.trimLeft := by
  generalize hq : Quoting.bare = quoting at h
  induction h with
  | nil => exact .nil
  | @char quoting c t t' hc hrest _ =>
      subst hq
      have hblank := (isVisible_iff.1 (hc rfl)).1
      have hkeep : ∀ u : Text, Text.trimLeft (c :: u) = c :: u := by
        intro u
        rw [Text.trimLeft, List.dropWhile_cons, hblank, if_neg Bool.false_ne_true]
      rw [hkeep, hkeep]
      exact .char hc hrest
  | gap hg hg' _ ih =>
      rw [Text.trimLeft_append hg.blank, Text.trimLeft_append hg'.blank]
      exact ih rfl

/-- Trimming a text from the right, character by character. -/
theorem trimRight_cons (c : CodePoint) (t : Text) :
    Text.trimRight (c :: t) =
      if t.trimRight = [] then if c.is Text.isBlank then [] else [c] else c :: t.trimRight := by
  have hsplit : (c :: t).reverse = t.reverse ++ [c] := List.reverse_cons
  rw [Text.trimRight, Text.trimRight, hsplit, List.dropWhile_append]
  cases hdrop : t.reverse.dropWhile (·.is Text.isBlank) with
  | nil =>
      cases hc : c.is Text.isBlank <;> simp [hc]
  | cons d rest => simp

theorem trimRight_blanks {g : Text} (hg : Text.isBlankText g = true) (t : Text) :
    Text.trimRight (g ++ t) = if t.trimRight = [] then [] else g ++ t.trimRight := by
  induction g with
  | nil =>
      rw [List.nil_append, List.nil_append]
      split
      · next hnil => exact hnil
      · rfl
  | cons c g ih =>
      rw [Text.isBlankText, List.all_cons, Bool.and_eq_true] at hg
      rw [List.cons_append, trimRight_cons, ih hg.2, hg.1]
      split <;> simp_all

/-- A character after which a scanner stands outside quotes is not blank, unless it is passed over
there. -/
theorem isBlank_of_next (hquoting : quoting.Proper) (hc : quoting = .bare → isVisible c = true)
    (hnext : quoting.next c = .bare) : c.is Text.isBlank = false := by
  cases quoting with
  | bare => exact (isVisible_iff.1 (hc rfl)).1
  | escaped => cases hnext
  | inside closer =>
      rw [Quoting.next] at hnext
      split at hnext
      · cases hnext
      split at hnext
      · next hclose => rw [hclose, hquoting closer rfl]
      · cases hnext

/-- A text that begins inside quotes and ends outside is not blank. -/
theorem trimRight_ne_nil (h : Respaced quoting t t') (hquoting : quoting.Proper)
    (hq : quoting ≠ .bare) : t.trimRight ≠ [] := by
  induction h with
  | nil => exact absurd rfl hq
  | @char quoting c t t' hc _ ih =>
      rw [trimRight_cons]
      by_cases hnext : quoting.next c = .bare
      · rw [isBlank_of_next hquoting hc hnext]
        split <;> simp
      · rw [if_neg (ih (hquoting.next c) hnext)]
        exact List.cons_ne_nil _ _
  | gap => exact absurd rfl hq

theorem trimRight (h : Respaced quoting t t') (hquoting : quoting.Proper) :
    Respaced quoting t.trimRight t'.trimRight := by
  induction h with
  | nil => exact .nil
  | @char quoting c t t' hc hrest ih =>
      have ih := ih (hquoting.next c)
      have hnil := ih.eq_nil_iff
      rw [trimRight_cons, trimRight_cons]
      by_cases hend : t.trimRight = []
      · -- only blanks follow, so that this is the last character outside quotes
        have hnext : quoting.next c = .bare := by
          by_contra hnext
          exact hrest.trimRight_ne_nil (hquoting.next c) hnext hend
        rw [if_pos hend, if_pos (hnil.1 hend), isBlank_of_next hquoting hc hnext,
          if_neg Bool.false_ne_true]
        refine .char hc ?_
        rw [hnext]
        exact .nil
      · rw [if_neg hend, if_neg (mt hnil.2 hend)]
        exact .char hc ih
  | gap hg hg' _ ih =>
      have ih := ih hquoting
      have hnil := ih.eq_nil_iff
      rw [trimRight_blanks hg.blank, trimRight_blanks hg'.blank]
      split
      · next hend =>
          rw [if_pos (hnil.1 hend)]
          exact .nil
      · next hend =>
          rw [if_neg (mt hnil.2 hend)]
          exact .gap hg hg' ih

theorem trim (h : Respaced .bare t t') : Respaced .bare t.trim t'.trim :=
  h.trimLeft.trimRight fun _ h => by cases h

/-- The items of respaced texts are respaced. -/
theorem splitItems (h : Respaced .bare t t') :
    List.Forall₂ (Respaced .bare) (Sql.splitItems t) (Sql.splitItems t') := by
  obtain ⟨hfirst, hlater⟩ := h.piecesFrom 0
  have htrimmed : List.Forall₂ (Respaced .bare) _ _ :=
    List.forall₂_map_left_iff.2 (List.forall₂_map_right_iff.2
      ((List.Forall₂.cons hfirst hlater).imp fun _ _ h => trim h))
  refine List.rel_filter (fun x y hxy => ?_) htrimmed
  show decide (x ≠ []) = true ↔ decide (y ≠ []) = true
  rw [decide_eq_true_eq, decide_eq_true_eq, ne_eq, ne_eq, hxy.eq_nil_iff]

/-! ## Words -/

theorem wordsFrom_blanks {g : Text} (hg : IsBlanks g) (t : Text) :
    Text.wordsFrom (g ++ t) =
      ([], if (Text.wordsFrom t).1.isEmpty then (Text.wordsFrom t).2
        else (Text.wordsFrom t).1 :: (Text.wordsFrom t).2) := by
  obtain ⟨hne, hblank⟩ := hg
  induction g with
  | nil => exact absurd rfl hne
  | cons c g ih =>
      rw [Text.isBlankText, List.all_cons, Bool.and_eq_true] at hblank
      rw [List.cons_append, Text.wordsFrom, hblank.1]
      simp only [if_true]
      by_cases hg : g = []
      · rw [hg, List.nil_append]
      · rw [ih hg hblank.2]
        rfl

theorem wordsFrom (h : Respaced quoting t t') : Text.wordsFrom t = Text.wordsFrom t' := by
  induction h with
  | nil => rfl
  | char _ _ ih => rw [Text.wordsFrom, Text.wordsFrom, ih]
  | gap hg hg' _ ih => rw [wordsFrom_blanks hg, wordsFrom_blanks hg', ih]

/-- Respaced texts are the same on one line. -/
theorem flattened (h : Respaced quoting t t') : t.flattened = t'.flattened := by
  rw [Text.flattened, Text.flattened, Text.words, Text.words, h.wordsFrom]

end Respaced

end SchemaDesk.Sql
