import SchemaDesk.Proofs.Sql.Built
import SchemaDesk.Proofs.Sql.Extent
import SchemaDesk.Proofs.Sql.StatementsAbreast

/-!
# One text after another

The statements of a text do not depend on what follows it.  If a text leaves nothing open, and a
semicolon stands between it and another text, the statements of the whole are those of the first
text and then those of the second one (`statements_append`).

The loop over the tokens of the whole text is compared turn by turn with the loop over those of the
first text.  Each turn goes the same way in both and leaves the semicolon to later turns, or takes it
where the first text ends; either way the second text is looked at from its start on.  There every
token stands where it does in the second text alone, only further on.
-/

namespace SchemaDesk.Sql

/-! ## Texts further on -/

/-- A token that stands further on. -/
def Token.shift (n : Nat) (t : Token) : Token :=
  { t with start := n + t.start, stop := n + t.stop }

theorem tokensFrom_shift (n position skip : Nat) (t : Text) :
    tokensFrom (n + position) skip t = (tokensFrom position skip t).map (Token.shift n) := by
  induction t generalizing position skip with
  | nil => cases skip <;> rfl
  | cons c rest ih =>
      cases skip with
      | succ skip => exact ih (position + 1) skip
      | zero =>
          rw [tokensFrom, tokensFrom]
          split
          · exact ih (position + 1) 0
          · generalize leading c rest = found
            obtain ⟨lexeme, width⟩ := found
            simp only [List.map_cons, Token.shift, ← ih]
            simp only [Nat.add_assoc]

theorem slice_shift (before t : Text) (start stop : Nat) :
    slice (before ++ t) (before.length + start) (before.length + stop) = slice t start stop := by
  rw [slice, slice, List.drop_length_add_append, Nat.add_sub_add_left]

theorem slice_append {t : Text} {stop : Nat} (h : stop ≤ t.length) (start : Nat) (u : Text) :
    slice (t ++ u) start stop = slice t start stop := by
  rw [slice, slice]
  by_cases hstart : start ≤ t.length
  · rw [List.drop_append_of_le_length hstart, List.take_append_of_le_length]
    rw [List.length_drop]
    omega
  · have hnone : stop - start = 0 := by omega
    rw [hnone, List.take_zero, List.take_zero]

/-- Tokens further on are read like the tokens themselves. -/
theorem pairing_shift (n : Nat) :
    Pairing (fun t u => u = t.shift n) (fun ts us => us = ts.map (Token.shift n)) 0 := by
  refine ⟨?_, ?_, ?_, ?_⟩
  · rintro t u rfl
    exact Lexeme.Kin.refl t.lexeme
  · rintro us rfl
    rfl
  · rintro t ts us rfl
    exact ⟨_, _, rfl, rfl, rfl⟩
  · rintro ts us rfl
    exact List.length_map _

/-- Statements that are the same, whatever tokens they take. -/
def SameStatement (found : Statement × List Token) (s : Statement) : Prop :=
  found.1 = s

/-- The statements found in tokens further on. -/
theorem turns_shift (before t : Text) (tokens : List Token) :
    (turns (statementTurn (before ++ t)) (tokens.map (Token.shift before.length))).1 =
      (turns (statementTurn t) tokens).1 := by
  have hsame : Comparison (fun t u => u = t.shift before.length)
      (fun ts us => us = ts.map (Token.shift before.length)) t (before ++ t) SameStatement := by
    refine ⟨?_, ?_, ?_⟩
    · rintro t u rfl
      rfl
    · rintro t u b c used name options rfl hb hc -
      cases hb.symm.trans hc
      rfl
    · rintro span span' first first' last last' used name hspans -
      obtain ⟨-, -, rfl⟩ := hspans.first
      obtain ⟨-, -, rfl⟩ := hspans.last
      exact congrArg (Statement.alterTable name) (slice_shift before t _ _).symm
  have hfound := statements_abreast (pairing_shift before.length) hsame
    (rfl : tokens.map (Token.shift before.length) = _)
  have hmap := forall₂_map_eq hfound (f := Prod.fst) (g := id) fun _ _ h => h
  rw [(turns_withTaken _ tokens).1, List.map_id] at hmap
  exact hmap.symm

/-! ## Tokens before a semicolon -/

section Semicolon

variable {s : Token} {after : List Token} {n : Nat}

/-- Tokens of a text, and the same ones before a semicolon and more. -/
def BeforeSemicolon (n : Nat) (s : Token) (after ts us : List Token) : Prop :=
  (∀ t ∈ ts, t.stop ≤ n) ∧ us = ts ++ s :: after

theorem pairing_semicolon (hs : s.isMark ';' = true) :
    Pairing Eq (BeforeSemicolon n s after) (after.length + 1) := by
  refine ⟨?_, ?_, ?_, ?_⟩
  · rintro t _ rfl
    exact Lexeme.Kin.refl t.lexeme
  · rintro _ ⟨-, rfl⟩
    exact hs
  · rintro t ts _ ⟨hstop, rfl⟩
    exact ⟨t, ts ++ s :: after, rfl, rfl, fun u hu => hstop u (List.mem_cons_of_mem _ hu), rfl⟩
  · rintro ts _ ⟨-, rfl⟩
    rw [List.length_append, List.length_cons]

/-- What a text goes on with makes no difference to the statements that end before. -/
theorem comparison_semicolon (t u : Text) :
    Comparison Eq (BeforeSemicolon t.length s after) t (t ++ u) SameStatement := by
  refine ⟨?_, ?_, ?_⟩
  · rintro _ _ rfl
    rfl
  · rintro x _ b c used name options rfl hb hc -
    cases hb.symm.trans hc
    rfl
  · rintro span span' first _ last _ used name hspans -
    obtain ⟨rest, rest', hstop, -⟩ := hspans.lists
    obtain ⟨-, -, rfl⟩ := hspans.first
    obtain ⟨hlast, -, rfl⟩ := hspans.last
    have hmem : last ∈ span ++ rest := List.mem_append_left _ (List.mem_of_getLast? hlast)
    exact congrArg (Statement.alterTable name) (slice_append (hstop last hmem) _ u).symm

/-- A turn before a semicolon goes the same way in both texts.  It leaves the semicolon to later
turns, or takes it where the first text ends. -/
theorem turn_semicolon (hs : s.isMark ';' = true) (t u : Text) (x : Token) {rest : List Token}
    (hstop : ∀ y ∈ rest, y.stop ≤ t.length) :
    ∃ found left, statementTurn t x rest = .next found left ∧
      (statementTurn (t ++ u) x (rest ++ s :: after) = .next found (left ++ s :: after) ∨
        left = [] ∧ statementTurn (t ++ u) x (rest ++ s :: after) = .next found after) := by
  have hrel := statementTurn_abreast (S := fun _ _ => False) (pairing_semicolon hs)
    (comparison_semicolon t u) (rfl : x = x)
    (⟨hstop, rfl⟩ : BeforeSemicolon t.length s after rest (rest ++ s :: after))
  rw [withTaken] at hrel
  generalize statementTurn t x rest = first at hrel ⊢
  generalize statementTurn (t ++ u) x (rest ++ s :: after) = second at hrel ⊢
  cases first with
  | stop left =>
      cases hrel with
      | stop hnever => exact hnever.elim
  | next found left =>
      cases hrel with
      | @next _ found' _ left' hfound hleft =>
          obtain rfl : found' = found := by
            cases found with
            | none =>
                cases hfound
                rfl
            | some a =>
                cases hfound with
                | some hsame => exact congrArg some hsame.symm
          refine ⟨_, left, rfl, ?_⟩
          obtain ⟨-, rfl⟩ | ⟨rfl, s', -, -, hleft⟩ := hleft
          · exact .inl rfl
          · obtain ⟨rfl, rfl⟩ := List.cons.inj hleft
            exact .inr ⟨rfl, rfl⟩

/-- The loop finds what stands before a semicolon, and then what comes after it. -/
theorem turns_semicolon (hs : s.isMark ';' = true) (t u : Text) (tokens : List Token)
    (hstop : ∀ x ∈ tokens, x.stop ≤ t.length) :
    (turns (statementTurn (t ++ u)) (tokens ++ s :: after)).1 =
      (turns (statementTurn t) tokens).1 ++ (turns (statementTurn (t ++ u)) after).1 := by
  induction tokens using turns_induction with
  | nil =>
      have hnext : statementTurn (t ++ u) s after = .next none after := by
        rw [statementTurn, Token.isKeyword_of_isMark hs, Token.isKeyword_of_isMark hs]
        rfl
      have hloop := turns_next [] hnext
      rw [List.nil_append] at hloop
      rw [List.nil_append, hloop]
      rfl
  | cons x rest ih =>
      obtain ⟨found, left, hturn, hwhole | ⟨rfl, hwhole⟩⟩ := @turn_semicolon s after hs t u x rest
        fun y hy => hstop y (List.mem_cons_of_mem _ hy)
      · have hk : (rest ++ s :: after).length - (left ++ s :: after).length =
            rest.length - left.length := by
          simp only [List.length_append]
          omega
        have hlater := ih (rest.length - left.length) fun y hy =>
          hstop y (List.mem_cons_of_mem _ (List.mem_of_mem_drop hy))
        rw [List.cons_append, turns_cons, turns_cons, hturn, hwhole]
        simp only [List.append_assoc, List.append_cancel_left_eq]
        rw [hk, List.drop_append_of_le_length (Nat.sub_le _ _), hlater]
      · -- nothing of the first text is left, and the loop goes on after the semicolon
        have hsplit : rest ++ s :: after = (rest ++ [s]) ++ after := by simp
        have hfirst : turns (statementTurn t) (x :: (rest ++ [])) = _ :=
          turns_next rest (by rwa [List.append_nil])
        rw [List.append_nil] at hfirst
        rw [hsplit] at hwhole
        have hnone : (turns (statementTurn t) []).1 = [] := rfl
        rw [List.cons_append, hsplit, turns_next (rest ++ [s]) hwhole, hfirst, hnone,
          List.append_nil]

end Semicolon

/-! ## Statements -/

/-- A text that closes all comments in blocks, quoted runs and groups that it opens.  A line comment
may reach to its end. -/
structure Closed (t : Text) : Prop where
  comments : endFrom (.code .bare) t = .code .bare ∨ endFrom (.code .bare) t = .line
  tokens : closesFrom 0 (stripComments t) = true

instance (t : Text) : Decidable (Closed t) :=
  decidable_of_iff (_ ∧ _) ⟨fun h => ⟨h.1, h.2⟩, fun h => ⟨h.comments, h.tokens⟩⟩

/-- A semicolon on a line of its own. -/
def semicolonLine : Text :=
  ['\n', ';', '\n']

/-- A text that is closed loses its comments without regard to what comes after it. -/
theorem Closed.stripped {t : Text} (h : Closed t) (u : Text) :
    stripComments (t ++ (semicolonLine ++ u)) =
      stripComments t ++ (semicolonLine ++ stripComments u) := by
  have hplain := (Neutral.of_all (t := semicolonLine) rfl).kept u
  have happend : stripFrom (.code .bare) (t ++ .char '\n' :: (.char ';' :: .char '\n' :: u)) = _ :=
    stripFrom_append (by decide) (by decide) (by decide) _
  refine happend.trans (congrArg (stripComments t ++ ·) ?_)
  rcases h.comments with hend | hend
  · rw [hend]
    exact hplain
  · -- the end of the line ends the comment
    rw [hend, stripFrom, if_pos rfl]
    have hrest := (Neutral.of_all (t := [.char ';', .char '\n']) rfl).kept u
    exact congrArg (_ :: ·) hrest

/-- A closed text is cut into its tokens without regard to what comes after it. -/
theorem tokenize_closed {t : Text} (h : closesFrom 0 t = true) (u : Text) :
    tokenize (t ++ (semicolonLine ++ u)) =
      tokenize t ++ ⟨.mark ';', t.length + 1, t.length + 2⟩ ::
        (tokenize u).map (Token.shift (t ++ semicolonLine).length) := by
  have hclosed := tokensFrom_closed h (Nat.zero_le _) (d := '\n') (by decide)
    (.char ';' :: .char '\n' :: u) 0
  have hline : tokensFrom t.length 0 (semicolonLine ++ u) =
      ⟨.mark ';', t.length + 1, t.length + 2⟩ :: tokensFrom (t.length + 3) 0 u := by
    have hlegible : Legible u.head? [.gap '\n', .mark ';', .gap '\n'] := ⟨rfl, by simp⟩
    exact tokensFrom_pieces hlegible t.length
  have hlength : (t ++ semicolonLine).length = t.length + 3 := List.length_append
  rw [Nat.zero_add] at hclosed
  rw [hlength, tokenize, tokenize, tokenize, ← tokensFrom_shift]
  exact hclosed.trans (congrArg _ hline)

/-- The statements of a closed text come first, and they do not depend on what follows it after a
semicolon; neither do the statements that follow depend on the closed text. -/
theorem statements_append {t : Text} (h : Closed t) (u : Text) :
    statements (t ++ semicolonLine ++ u) = statements t ++ statements u := by
  rw [List.append_assoc, statements, h.stripped, tokenize_closed h.tokens,
    turns_semicolon rfl _ _ _ fun x hx => ?_]
  · rw [← List.append_assoc, turns_shift]
    rfl
  · have hbounds := (tokensFrom_sorted 0 0 (stripComments t)).1 x hx
    omega

/-- A text that ends in the middle of the options of a table, with a semicolon in quotes, a
parenthesis in a literal and a comment that is not ended. -/
def unfinishedText : Text :=
  "CREATE TABLE [a (] (`;` TEXT DEFAULT 'it''s (') /* ; */ ENGINE = InnoDB COMMENT -- 'x"

/-- What follows is a statement of its own, though an option waits for its value. -/
theorem statements_append_unfinished :
    Closed unfinishedText ∧
      statements (unfinishedText ++ semicolonLine ++ "'note' ALTER TABLE a ADD UNIQUE (b)") =
        [.createTable "a (" "`;` TEXT DEFAULT 'it''s ('"
            { engine := some (Text.ofString "InnoDB") },
          .alterTable "a" "ADD UNIQUE (b)"] := by
  have hclosed : Closed unfinishedText := by
    rw [unfinishedText, Text.ofString_ofList]
    decide +kernel
  refine ⟨hclosed, ?_⟩
  rw [statements_append hclosed, unfinishedText]
  repeat rw [Text.ofString_ofList]
  decide +kernel

end SchemaDesk.Sql
