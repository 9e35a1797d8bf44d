import SchemaDesk.Proofs.Sql.Sequence

/-!
# Reading around a literal

A closed string literal that stands on its own is one token or part of one group, whatever stands in
it: the tokens before it and those after it do not depend on the literal, but for where they stand
(`tokenize_frame`).  A group holds the literal in a smaller frame, so that the same can be said of
the tokens inside.
-/

namespace SchemaDesk.Sql

/-! ## Literals -/

/-- A string literal that is closed by its last quote and not before. -/
structure IsLiteral (t : Text) : Prop where
  first : t.head? = some (.char '\'')
  closed : closesRun '\'' t.tail = true
  whole : takeRun '\'' t.tail = t.tail

instance (t : Text) : Decidable (IsLiteral t) :=
  decidable_of_iff (_ ∧ _ ∧ _) ⟨fun h => ⟨h.1, h.2.1, h.2.2⟩, fun h => ⟨h.first, h.closed, h.whole⟩⟩

/-- What a string literal says. -/
def valueIn (literal : Text) : Text :=
  literalValue (runContents '\'' literal.tail)

section Runs

variable {closer : CodePoint} {t : Text}

/-- A closed run begins inside quotes and ends outside. -/
theorem takeRun_stays (hquote : isQuote closer = true) (h : closesRun closer t = true) :
    (Quoting.inside closer).stays (takeRun closer t) = true ∧
      (Quoting.inside closer).after (takeRun closer t) = .bare := by
  refine ⟨stays_takeRun hquote t, ?_⟩
  have hopen := Quoting.next_of_isQuote hquote
  have hclose := next_closer closer
  fun_induction closesRun closer t with
  | case1 => cases h
  | case2 c =>
      obtain rfl : c = closer := of_decide_eq_true h
      simp [takeRun, hclose]
  | case3 c d rest hescape ih =>
      rw [takeRun, if_pos hescape]
      rw [escapes, Bool.and_eq_true, decide_eq_true_eq, decide_eq_true_eq] at hescape
      obtain ⟨rfl, rfl⟩ := hescape
      simp [Quoting.next, ih h]
  | case4 rest hescape ih => simp [takeRun, hescape, hclose, hopen, ih h]
  | case5 d rest hescape hd => simp [takeRun, hescape, hd, hclose]
  | case6 c d rest hescape hother ih =>
      have hnext : (Quoting.inside closer).next c = .inside closer := by
        rw [escapes, Bool.and_eq_true, decide_eq_true_eq, decide_eq_true_eq] at hescape
        rw [Quoting.next, if_neg hescape, if_neg hother]
      rw [takeRun, if_neg hescape, if_neg hother, Quoting.after_cons, hnext, ih h]

/-- A text that begins inside quotes and ends outside closes a run. -/
theorem closesRun_of_after (hquote : isQuote closer = true)
    (h : (Quoting.inside closer).after t = .bare) :
    closesRun closer t = true := by
  fun_induction closesRun closer t with
  | case1 => cases h
  | case2 c =>
      by_contra hc
      rw [decide_eq_true_eq] at hc
      rw [Quoting.after_cons, Quoting.next, if_neg hc] at h
      split at h <;> cases h
  | case3 c d rest hescape ih =>
      rw [escapes, Bool.and_eq_true, decide_eq_true_eq, decide_eq_true_eq] at hescape
      obtain ⟨rfl, rfl⟩ := hescape
      exact ih h
  | case4 rest hescape ih =>
      rw [escapes, Bool.and_eq_true, decide_eq_true_eq, decide_eq_true_eq] at hescape
      rw [Quoting.after_cons, Quoting.next, if_neg hescape, if_pos rfl, Quoting.after_cons,
        Quoting.next_of_isQuote hquote] at h
      exact ih h
  | case5 d rest hescape hd => rfl
  | case6 c d rest hescape hother ih =>
      rw [escapes, Bool.and_eq_true, decide_eq_true_eq, decide_eq_true_eq] at hescape
      rw [Quoting.after_cons, Quoting.next, if_neg hescape, if_neg hother] at h
      exact ih h

/-- A run that is closed by the end of its text ends in its own quote. -/
theorem getLast?_of_closed (h : closesRun closer t = true) (hwhole : takeRun closer t = t) :
    t.getLast? = some closer := by
  fun_induction closesRun closer t with
  | case1 => cases h
  | case2 c =>
      obtain rfl : c = closer := of_decide_eq_true h
      rfl
  | case3 c d rest hescape ih =>
      rw [takeRun, if_pos hescape, List.cons.injEq, List.cons.injEq] at hwhole
      rw [List.getLast?_cons_cons, List.getLast?_cons, ih h hwhole.2.2]
      rfl
  | case4 rest hescape ih =>
      rw [takeRun, if_neg hescape, if_pos rfl, if_pos rfl, List.cons.injEq,
        List.cons.injEq] at hwhole
      rw [List.getLast?_cons_cons, List.getLast?_cons, ih h hwhole.2.2]
      rfl
  | case5 d rest hescape hd =>
      rw [takeRun, if_neg hescape, if_pos rfl, if_neg hd, List.cons.injEq] at hwhole
      cases hwhole.2
  | case6 c d rest hescape hother ih =>
      rw [takeRun, if_neg hescape, if_neg hother, List.cons.injEq] at hwhole
      rw [List.getLast?_cons_cons, ih h hwhole.2]

end Runs

namespace IsLiteral

variable {l u : Text}

theorem eq_cons (h : IsLiteral l) : l = .char '\'' :: l.tail := by
  have hfirst := h.first
  cases l with
  | nil => cases hfirst
  | cons c rest =>
      cases hfirst
      rfl

theorem ne_nil (h : IsLiteral l) : l ≠ [] := by
  rw [h.eq_cons]
  exact List.cons_ne_nil _ _

theorem isRun (h : IsLiteral l) : IsRun l := by
  obtain ⟨hstays, hafter⟩ := takeRun_stays rfl h.closed
  rw [h.whole] at hstays hafter
  rw [h.eq_cons]
  exact ⟨hstays, hafter⟩

/-- A literal is read as one token where no other quote follows it. -/
theorem leading (h : IsLiteral l) (hu : u.head? ≠ some (.char '\'')) :
    Sql.leading '\'' (l.tail ++ u) = (.literal (valueIn l), l.tail.length) := by
  have hrun : takeRun '\'' (l.tail ++ u) = l.tail := by
    rw [takeRun_append h.closed fun _ => hu, h.whole]
  have hcloser : closer? '\'' = some (.char '\'') := rfl
  have hword : isWordChar '\'' = false := by decide
  rw [Sql.leading, hword, if_neg Bool.false_ne_true, hcloser]
  simp only [hrun, quotedLexeme, if_true, valueIn]

end IsLiteral

theorem isLiteral_quoteLiteral (v : Text) : IsLiteral (quoteLiteral v) := by
  have hclosed : closesRun '\'' (escapedLiteral v ++ [.char '\'']) = true := by
    refine closesRun_of_after rfl ?_
    rw [Quoting.after_append, (stays_escapedLiteral v).2]
    rfl
  refine ⟨rfl, hclosed, ?_⟩
  exact takeRun_escapedLiteral v (u := []) (by simp)

theorem valueIn_quoteLiteral (v : Text) : valueIn (quoteLiteral v) = v := by
  show literalValue (runContents '\'' (escapedLiteral v ++ [.char '\''])) = v
  rw [runContents_closed, literalValue_escapedLiteral]

/-! ## Frames -/

/-- What stands before a literal and after it: the literal begins outside quotes, and no quote that
touches it could belong to it. -/
structure Frame (before after : Text) : Prop where
  outside : Quoting.bare.after before = .bare
  plain : .char '[' ∉ before
  first : before.getLast? ≠ some (.char '\'')
  last : after.head? ≠ some (.char '\'')

/-- The token that holds a literal at a position, for all literals: the literal itself, or a group
around it. -/
inductive Holder (n : Nat) : (Text → Token) → Prop where
  | literal : Holder n fun l => ⟨.literal (valueIn l), n, n + l.length⟩
  | group {d e : Text} {start extra : Nat} : start + 1 + d.length = n → Frame d e →
      Holder n fun l => ⟨.group (d ++ (l ++ e)), start, n + (l.length + (e.length + extra))⟩

/-- Tokens before a literal, the one that holds it, and those after it, which stand further on by the
length of the literal. -/
structure Surrounds (n : Nat) (ts : List Token) (x : Text → Token) (us : List Token) : Prop where
  holder : Holder n x
  before : ∀ t ∈ ts, t.stop ≤ n
  after : ∀ u ∈ us, n ≤ u.start

section States

variable {c : CodePoint} {t rest body : Text}

theorem after_of_all (h : ∀ c ∈ t, isQuote c = false) : Quoting.bare.after t = .bare := by
  induction t with
  | nil => rfl
  | cons c t ih =>
      rw [List.forall_mem_cons] at h
      rw [Quoting.after_cons, Quoting.next_of_not_isQuote h.1]
      exact ih h.2

/-- A group is closed outside quotes. -/
theorem takeGroup_outside {depth : Nat} {quoting : Quoting}
    (h : takeGroup depth quoting t = some body) : quoting.after body = .bare := by
  induction t generalizing depth quoting body with
  | nil => cases h
  | cons c t ih =>
      by_cases hclose : quoting = .bare ∧ c = ')'
      · obtain ⟨rfl, rfl⟩ := hclose
        cases depth with
        | zero =>
            cases h
            rfl
        | succ depth =>
            rw [takeGroup_close] at h
            obtain ⟨body, hbody, rfl⟩ := Option.map_eq_some_iff.1 h
            rw [Quoting.after_cons]
            exact ih hbody
      · rw [takeGroup_cons hclose, Option.map_eq_some_iff] at h
        obtain ⟨body, hbody, rfl⟩ := h
        rw [Quoting.after_cons]
        exact ih hbody

/-- A group that is not closed goes on in what follows. -/
theorem takeGroup_open {depth : Nat} {quoting : Quoting} (h : takeGroup depth quoting t = none) :
    ∃ inner, ∀ u, takeGroup depth quoting (t ++ u) =
      (takeGroup inner (quoting.after t) u).map (t ++ ·) := by
  induction t generalizing depth quoting with
  | nil => exact ⟨depth, fun u => by simp⟩
  | cons c t ih =>
      by_cases hclose : quoting = .bare ∧ c = ')'
      · obtain ⟨rfl, rfl⟩ := hclose
        cases depth with
        | zero => simp [takeGroup] at h
        | succ depth =>
            rw [takeGroup_close, Option.map_eq_none_iff] at h
            obtain ⟨inner, hinner⟩ := ih h
            refine ⟨inner, fun u => ?_⟩
            rw [List.cons_append, takeGroup_close, hinner, Option.map_map]
            rfl
      · rw [takeGroup_cons hclose, Option.map_eq_none_iff] at h
        obtain ⟨inner, hinner⟩ := ih h
        refine ⟨inner, fun u => ?_⟩
        rw [List.cons_append, takeGroup_cons hclose, hinner, Option.map_map]
        rfl

/-- A closed token begins and ends outside quotes. -/
theorem leading_outside (hc : c ≠ '[') (h : leadingCloses c rest = true) :
    Quoting.bare.after (c :: rest.take (leading c rest).2) = .bare := by
  rw [leadingCloses] at h
  rw [leading]
  by_cases hword : isWordChar c = true
  · rw [if_pos hword]
    refine after_of_all (List.forall_mem_cons.2 ⟨?_, fun d hd => ?_⟩)
    · exact isQuote_of_isSolidChar (isSolidChar_of_isWordChar hword)
    · rw [← (List.prefix_iff_eq_take.1 (List.takeWhile_prefix isWordChar))] at hd
      exact isQuote_of_isSolidChar (isSolidChar_of_isWordChar (List.mem_takeWhile_imp hd))
  rw [if_neg hword]
  by_cases hquote : isQuote c = true
  · simp only [closer?_of_isQuote hquote] at h ⊢
    rw [← List.prefix_iff_eq_take.1 (takeRun_isPrefix c rest), Quoting.after_cons,
      Quoting.next_of_isQuote hquote]
    exact (takeRun_stays hquote h).2
  rw [Bool.not_eq_true] at hquote
  have hnext := Quoting.next_of_not_isQuote hquote
  simp only [closer?_eq_none hquote hc] at h ⊢
  by_cases hopen : c = '('
  · simp only [hopen, decide_not, decide_true, Bool.not_true, Bool.false_or] at h
    obtain ⟨body, hbody⟩ := Option.isSome_iff_exists.1 h
    obtain ⟨later, rfl⟩ := takeGroup_prefix hbody
    have htake : (body ++ .char ')' :: later).take (body.length + 1) = body ++ [.char ')'] := by
      rw [List.take_length_add_append]
      rfl
    rw [if_pos hopen, hbody]
    simp only [htake]
    rw [Quoting.after_cons, hnext, Quoting.after_append, takeGroup_outside hbody]
    rfl
  · rw [if_neg hopen, List.take_zero, Quoting.after_cons, hnext]
    rfl

/-- What follows a closed token begins outside quotes. -/
theorem drop_leading_outside (hc : c ≠ '[') (h : leadingCloses c rest = true)
    (hout : Quoting.bare.after (c :: rest) = .bare) :
    Quoting.bare.after (rest.drop (leading c rest).2) = .bare := by
  have hclosed := leading_outside hc h
  rw [Quoting.after_cons] at hout hclosed
  rwa [← List.take_append_drop (leading c rest).2 rest, Quoting.after_append, hclosed] at hout

/-- In a text that ends outside quotes only a group can be left open. -/
theorem opens_group (hc : c ≠ '[') (hout : Quoting.bare.after (c :: rest) = .bare)
    (h : leadingCloses c rest ≠ true) : c = '(' ∧ takeGroup 0 .bare rest = none := by
  have hquote : isQuote c = false := by
    by_contra hquote
    rw [Bool.not_eq_false] at hquote
    rw [Quoting.after_cons, Quoting.next_of_isQuote hquote] at hout
    refine h ?_
    simp only [leadingCloses, closer?_of_isQuote hquote]
    exact closesRun_of_after hquote hout
  simpa [leadingCloses, closer?_eq_none hquote hc] using h

end States

/-! ## Tokens around a literal -/

section Tokens

variable {before after : Text}

theorem tokensFrom_shifted (n p : Nat) (t : Text) :
    tokensFrom (p + n) 0 t = (tokensFrom p 0 t).map (Token.shift n) := by
  rw [Nat.add_comm, tokensFrom_shift]

/-- A literal at the start of a text is the first token. -/
theorem tokensFrom_literal {l : Text} (hl : IsLiteral l) (hlast : after.head? ≠ some (.char '\''))
    (p : Nat) :
    tokensFrom p 0 (l ++ after) =
      ⟨.literal (valueIn l), p, p + l.length⟩ ::
        (tokensFrom p 0 after).map (Token.shift l.length) := by
  have htokens := tokensFrom_leading (by decide) (hl.leading hlast) p
  rw [← hl.eq_cons] at htokens
  rw [htokens, tokensFrom_shifted]

/-- A literal does not reach into a token that is closed before it. -/
theorem leading_before_literal {c : CodePoint} {l rest : Text} (hl : IsLiteral l)
    (h : leadingCloses c rest = true) (hrest : rest.getLast? ≠ some (.char '\'')) :
    leading c (rest ++ (l ++ after)) = leading c rest := by
  have hhead : (l ++ after).head? = some (.char '\'') := by
    rw [hl.eq_cons]
    rfl
  refine leading_append h (by rw [hhead]; decide) fun closer hcloser hwhole hsame => ?_
  -- a run in the same quotes would have to end in the quote that the text does not end in
  obtain rfl := Option.some.inj (hhead.symm.trans hsame)
  simp only [leadingCloses, hcloser] at h
  exact hrest (getLast?_of_closed h hwhole)

/-- A group that is opened before a literal and not closed there holds the literal. -/
theorem tokensFrom_group {d : Text} (hopen : takeGroup 0 .bare d = none) (h : Frame d after)
    (p : Nat) :
    ∃ (e : Text) (extra : Nat) (us : List Token), Frame d e ∧
      (∀ u ∈ us, p + 1 + d.length ≤ u.start) ∧ ∀ l, IsLiteral l →
      tokensFrom p 0 (.char '(' :: (d ++ (l ++ after))) =
        ⟨.group (d ++ (l ++ e)), p, p + 1 + d.length + (l.length + (e.length + extra))⟩ ::
          us.map (Token.shift l.length) := by
  obtain ⟨inner, hinner⟩ := takeGroup_open hopen
  have hgroup : ∀ l, IsLiteral l → takeGroup 0 .bare (d ++ (l ++ after)) =
      (takeGroup inner .bare after).map fun e => d ++ (l ++ e) := by
    intro l hl
    rw [hinner, h.outside, (Solid.of_run hl.isRun).grouped, Option.map_map]
    rfl
  cases he : takeGroup inner .bare after with
  | none =>
      -- the group reaches to the end of the text
      refine ⟨after, 0, [], h, by simp, fun l hl => ?_⟩
      have hgroup : leading (.char '(') (d ++ (l ++ after) ++ []) =
          (.group (d ++ (l ++ after)), (d ++ (l ++ after)).length) := by
        rw [List.append_nil, leading_open, hgroup l hl, he]
        rfl
      have htokens := tokensFrom_leading (by decide) hgroup p
      rw [List.append_nil] at htokens
      rw [htokens]
      simp only [tokensFrom, List.map_nil, List.length_cons, List.length_append]
      congr 2
      omega
  | some e =>
      obtain ⟨rest, rfl⟩ := takeGroup_prefix he
      have hlast : e.head? ≠ some (.char '\'') := by
        have hlast := h.last
        cases e with
        | nil => simp
        | cons c e => exact hlast
      refine ⟨e, 1, tokensFrom (p + 1 + d.length + e.length + 1) 0 rest,
        ⟨h.outside, h.plain, h.first, hlast⟩, fun u hu => ?_, fun l hl => ?_⟩
      · have hbounds := (tokensFrom_sorted _ 0 rest).1 u hu
        omega
      · have hsplit : d ++ (l ++ (e ++ .char ')' :: rest)) =
            (d ++ (l ++ e) ++ [.char ')']) ++ rest := by simp
        have hgroup : leading (.char '(') (d ++ (l ++ e) ++ [.char ')'] ++ rest) =
            (.group (d ++ (l ++ e)), (d ++ (l ++ e) ++ [CodePoint.char ')']).length) := by
          have hlength : (d ++ (l ++ e) ++ [CodePoint.char ')']).length =
              (d ++ (l ++ e)).length + 1 := List.length_append
          rw [hlength, ← hsplit, leading_open, hgroup l hl, he]
          rfl
        have htokens := tokensFrom_leading (by decide) hgroup p
        rw [List.cons_append, ← hsplit] at htokens
        rw [htokens, ← tokensFrom_shifted]
        congr 2
        · simp only [List.length_cons, List.length_append, List.length_nil]
          omega
        · simp only [List.length_cons, List.length_append, List.length_nil]
          omega

/-- Around a literal the tokens are the same whichever literal it is, and one token holds it. -/
theorem tokensFrom_frame {skip : Nat} (hout : Quoting.bare.after (before.drop skip) = .bare)
    (hskip : skip ≤ before.length) (hplain : .char '[' ∉ before)
    (hfirst : before.getLast? ≠ some (.char '\'')) (hlast : after.head? ≠ some (.char '\''))
    (p : Nat) :
    ∃ ts x us, Surrounds (p + before.length) ts x us ∧ ∀ l, IsLiteral l →
      tokensFrom p skip (before ++ (l ++ after)) = ts ++ x l :: us.map (Token.shift l.length) := by
  induction before generalizing skip p with
  | nil =>
      obtain rfl := Nat.le_zero.1 hskip
      refine ⟨[], _, tokensFrom p 0 after, ⟨.literal, by simp, fun u hu => ?_⟩, fun l hl => ?_⟩
      · exact ((tokensFrom_sorted p 0 after).1 u hu).1
      · exact tokensFrom_literal hl hlast p
  | cons c rest ih =>
      rw [List.mem_cons, not_or] at hplain
      have hrest : rest.getLast? ≠ some (.char '\'') := by
        cases rest with
        | nil => simp
        | cons d rest => rwa [List.getLast?_cons_cons] at hfirst
      have hn : p + 1 + rest.length = p + (c :: rest).length := by
        rw [List.length_cons]
        omega
      cases skip with
      | succ skip =>
          rw [← hn]
          exact ih hout (Nat.le_of_succ_le_succ hskip) hplain.2 hrest (p + 1)
      | zero =>
          rw [List.drop_zero] at hout
          simp only [List.cons_append]
          by_cases hblank : c.is Text.isBlank = true
          · rw [Quoting.after_cons, next_of_isSolidChar (isSolidChar_of_blank hblank)] at hout
            obtain ⟨ts, x, us, hsurrounds, htokens⟩ :=
              ih (by rwa [List.drop_zero]) (Nat.zero_le _) hplain.2 hrest (p + 1)
            rw [hn] at hsurrounds
            refine ⟨ts, x, us, hsurrounds, fun l hl => ?_⟩
            rw [tokensFrom, if_pos hblank, htokens l hl]
          have hspace : c.is Text.isBlank = false := Bool.eq_false_iff.2 hblank
          by_cases hcloses : leadingCloses c rest = true
          · -- the token ends before the literal
            have hwidth := leading_width_le c rest
            obtain ⟨ts, x, us, hsurrounds, htokens⟩ :=
              ih (drop_leading_outside (Ne.symm hplain.1) hcloses hout) hwidth hplain.2 hrest
                (p + 1)
            rw [hn] at hsurrounds
            refine ⟨⟨(leading c rest).1, p, p + 1 + (leading c rest).2⟩ :: ts, x, us,
              ⟨hsurrounds.holder, ?_, hsurrounds.after⟩, fun l hl => ?_⟩
            · refine List.forall_mem_cons.2 ⟨?_, hsurrounds.before⟩
              show p + 1 + (leading c rest).2 ≤ _
              omega
            · rw [tokensFrom, hspace, leading_before_literal hl hcloses hrest]
              simp only [Bool.false_eq_true, if_false, htokens l hl, List.cons_append]
          · -- the token is a group that holds the literal
            obtain ⟨rfl, hopen⟩ := opens_group (Ne.symm hplain.1) hout hcloses
            obtain ⟨e, extra, us, hframe, hus, htokens⟩ :=
              tokensFrom_group hopen ⟨hout, hplain.2, hrest, hlast⟩ p
            rw [← hn]
            exact ⟨[], _, us, ⟨.group rfl hframe, by simp, hus⟩, htokens⟩

theorem tokenize_frame (h : Frame before after) :
    ∃ ts x us, Surrounds before.length ts x us ∧ ∀ l, IsLiteral l →
      tokenize (before ++ (l ++ after)) = ts ++ x l :: us.map (Token.shift l.length) := by
  have hout : Quoting.bare.after (before.drop 0) = .bare := h.outside
  obtain ⟨ts, x, us, hsurrounds, htokens⟩ :=
    tokensFrom_frame hout (Nat.zero_le _) h.plain h.first h.last 0
  rw [Nat.zero_add] at hsurrounds
  exact ⟨ts, x, us, hsurrounds, htokens⟩

end Tokens

end SchemaDesk.Sql
