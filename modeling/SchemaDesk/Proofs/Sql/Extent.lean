import SchemaDesk.Proofs.Sql.Pieces
import SchemaDesk.Sql.Comment

/-!
# How far tokens and comments reach

Tokens stand one after the other inside their text (`tokensFrom_sorted`), and a token that is closed
does not change when a text is continued.  So a text whose runs and groups are all closed is read as
it is and then what follows it (`tokensFrom_closed`).

Comments are removed in the same way: what comes before a character that cannot be the second one of
a comment mark is stripped on its own, and the rest from the state in which that ends
(`stripFrom_append`).
-/

namespace SchemaDesk.Sql

/-! ## Comments -/

/-- The state in which the removal of comments ends. -/
def endFrom : CommentState → Text → CommentState
  | state, [] => state
  | .line, c :: rest => if c = '\n' then endFrom (.code .bare) rest else endFrom .line rest
  | .block, [_] => .block
  | .block, c :: d :: rest =>
      if c = '*' ∧ d = '/' then endFrom (.code .bare) rest else endFrom .block (d :: rest)
  | .code quoting, [c] => .code (quoting.next c)
  | .code quoting, c :: d :: rest =>
      if quoting = .bare ∧ c = '-' ∧ d = '-' then endFrom .line rest
      else if quoting = .bare ∧ c = '/' ∧ d = '*' then endFrom .block rest
      else endFrom (.code (quoting.next c)) (d :: rest)

/-- The removal of comments goes on from the state that it is in, unless a comment mark spans both
texts. -/
theorem stripFrom_append {state : CommentState} {t : Text} {d : CodePoint} (hdash : d ≠ '-')
    (hstar : d ≠ '*') (hslash : d ≠ '/') (u : Text) :
    stripFrom state (t ++ d :: u) = stripFrom state t ++ stripFrom (endFrom state t) (d :: u) := by
  fun_induction endFrom state t with
  | case1 state => cases state <;> rfl
  | case2 rest ih => simp only [List.cons_append, stripFrom, if_true, ih]
  | case3 c rest hbreak ih => simp only [List.cons_append, stripFrom, if_neg hbreak, ih]
  | case4 c =>
      simp only [List.singleton_append, stripFrom, hslash, and_false, if_false, List.nil_append]
  | case5 c e rest hclose ih => simp only [List.cons_append, stripFrom, if_pos hclose, ih]
  | case6 c e rest hclose ih =>
      rw [List.cons_append] at ih
      simp only [List.cons_append, stripFrom, if_neg hclose, ih]
  | case7 quoting c =>
      simp only [List.singleton_append, stripFrom, hdash, hstar, and_false, if_false]
  | case8 quoting c e rest hline ih => simp only [List.cons_append, stripFrom, if_pos hline, ih]
  | case9 quoting c e rest hline hblock ih =>
      simp only [List.cons_append, stripFrom, if_neg hline, if_pos hblock, ih]
  | case10 quoting c e rest hline hblock ih =>
      rw [List.cons_append] at ih
      simp only [List.cons_append, stripFrom, if_neg hline, if_neg hblock, ih]

/-- A run outside comments stays as it is, and comments are removed before it and after it. -/
theorem stripComments_around {before t : Text} (hend : endFrom (.code .bare) before = .code .bare)
    (ht : IsRun t) (hne : t ≠ []) (after : Text) :
    stripComments (before ++ (t ++ after)) = stripComments before ++ (t ++ stripComments after) := by
  obtain ⟨c, rest, rfl⟩ := List.exists_cons_of_ne_nil hne
  have hquote : isQuote c = true := by
    have hstays := ht.stays
    rw [Quoting.stays, Bool.and_eq_true] at hstays
    simpa using hstays.1
  have hother : ∀ d : CodePoint, isQuote d = false → c ≠ d := by
    rintro d hd rfl
    rw [hd] at hquote
    cases hquote
  have hkept := (Solid.of_run ht).kept after
  rw [List.cons_append] at hkept ⊢
  rw [stripComments, stripFrom_append (hother _ rfl) (hother _ rfl) (hother _ rfl), hend, hkept]
  rfl

/-- Where the removal of comments stands with regard to quotes. -/
def CommentState.quoting : CommentState → Quoting
  | .code quoting => quoting
  | .line => .bare
  | .block => .bare

/-- What is left of a text ends inside quotes exactly where the text does. -/
theorem after_stripFrom (state : CommentState) (t : Text) :
    state.quoting.after (stripFrom state t) = (endFrom state t).quoting := by
  fun_induction endFrom state t with
  | case1 state => cases state <;> rfl
  | case2 rest ih =>
      simp only [stripFrom, if_true]
      exact ih
  | case3 c rest hbreak ih =>
      simp only [stripFrom, if_neg hbreak]
      exact ih
  | case4 c => rfl
  | case5 c e rest hclose ih =>
      simp only [stripFrom, if_pos hclose]
      exact ih
  | case6 c e rest hclose ih =>
      simp only [stripFrom, if_neg hclose]
      exact ih
  | case7 quoting c => rfl
  | case8 quoting c e rest hline ih =>
      simp only [stripFrom, if_pos hline]
      rw [hline.1]
      exact ih
  | case9 quoting c e rest hline hblock ih =>
      -- the comment leaves a space, which does not open quotes
      simp only [stripFrom, if_neg hline, if_pos hblock]
      rw [hblock.1]
      exact ih
  | case10 quoting c e rest hline hblock ih =>
      simp only [stripFrom, if_neg hline, if_neg hblock]
      exact ih

/-- Removing comments adds no character but spaces. -/
theorem mem_stripFrom {state : CommentState} {t : Text} {c : CodePoint}
    (h : c ∈ stripFrom state t) : c ∈ t ∨ c = ' ' := by
  fun_induction stripFrom state t <;> grind

theorem head?_stripFrom_line {t : Text} {c : CodePoint}
    (h : (stripFrom .line t).head? = some c) : c = '\n' := by
  induction t with
  | nil => cases h
  | cons d t ih =>
      rw [stripFrom] at h
      split at h
      · next hbreak =>
          cases h
          exact hbreak
      · exact ih h

/-- What is left of code begins as the code does, or with a blank in the place of a comment. -/
theorem head?_stripFrom {quoting : Quoting} {t : Text} {c : CodePoint}
    (h : (stripFrom (.code quoting) t).head? = some c) : c = '\n' ∨ c = ' ' ∨ t.head? = some c := by
  match t with
  | [] => cases h
  | [_] => exact .inr (.inr h)
  | d :: e :: rest =>
      rw [stripFrom] at h
      split at h
      · exact .inl (head?_stripFrom_line h)
      split at h
      · cases h
        exact .inr (.inl rfl)
      · exact .inr (.inr h)

/-! ## Runs and groups -/

/-- Whether a run that `closer` ends is closed in what follows its opening quote. -/
def closesRun (closer : CodePoint) : Text → Bool
  | [] => false
  | [c] => c = closer
  | c :: d :: rest =>
      if escapes closer c then closesRun closer rest
      else if c = closer then
        if d = closer then closesRun closer rest else true
      else closesRun closer (d :: rest)

theorem takeRun_isPrefix (closer : CodePoint) (t : Text) : takeRun closer t <+: t := by
  fun_induction takeRun closer t with
  | case1 => exact List.prefix_refl _
  | case2 c => exact List.prefix_refl _
  | case3 c d rest hescape ih => simpa using ih
  | case4 rest hescape ih => simpa using ih
  | case5 d rest hescape hd => exact ⟨_, rfl⟩
  | case6 c d rest hescape hclose ih => simpa using ih

theorem escapes_self (c : CodePoint) : escapes c c = false := by
  rw [escapes, Bool.and_eq_false_iff, decide_eq_false_iff_not, decide_eq_false_iff_not]
  by_cases hc : c = '\\'
  · exact .inr (by rw [hc]; decide)
  · exact .inl hc

/-- A closed run does not go on when its text does, unless its last quote is doubled then. -/
theorem takeRun_append {closer : CodePoint} {t u : Text} (h : closesRun closer t = true)
    (hu : takeRun closer t = t → u.head? ≠ some closer) :
    takeRun closer (t ++ u) = takeRun closer t := by
  fun_induction closesRun closer t with
  | case1 => cases h
  | case2 c =>
      obtain rfl : c = closer := of_decide_eq_true h
      exact takeRun_close (escapes_self c) (hu rfl)
  | case3 c d rest hescape ih =>
      simp only [takeRun, hescape, if_true, List.cons.injEq, true_and] at hu
      simp only [List.cons_append, takeRun, hescape, if_true, ih h hu]
  | case4 rest hescape ih =>
      simp only [takeRun, hescape, Bool.false_eq_true, if_false, if_true, List.cons.injEq,
        true_and] at hu
      simp only [List.cons_append, takeRun, hescape, Bool.false_eq_true, if_false, if_true, ih h hu]
  | case5 d rest hescape hd =>
      simp only [List.cons_append, takeRun, hescape, Bool.false_eq_true, if_false, if_true, hd]
  | case6 c d rest hescape hclose ih =>
      simp only [takeRun, hescape, Bool.false_eq_true, if_false, hclose, List.cons.injEq,
        true_and] at hu
      have ih := ih h hu
      rw [List.cons_append] at ih
      simp only [List.cons_append, takeRun, hescape, Bool.false_eq_true, if_false, hclose, ih]

/-- Its own quote leads out of a run. -/
theorem next_closer (closer : CodePoint) : (Quoting.inside closer).next closer = .bare := by
  have hescape := escapes_self closer
  rw [escapes, Bool.and_eq_false_iff, decide_eq_false_iff_not, decide_eq_false_iff_not] at hescape
  rw [Quoting.next, if_neg fun h => hescape.elim (absurd h.1) (absurd h.2), if_pos rfl]

/-- What a run takes stands in quotes, whether it is closed or not. -/
theorem stays_takeRun {closer : CodePoint} (hquote : isQuote closer = true) (t : Text) :
    (Quoting.inside closer).stays (takeRun closer t) = true := by
  have hopen := Quoting.next_of_isQuote hquote
  have hclose := next_closer closer
  fun_induction takeRun closer t with
  | case1 => rfl
  | case2 c => simp [Quoting.stays]
  | case3 c d rest hescape ih =>
      rw [escapes, Bool.and_eq_true, decide_eq_true_eq, decide_eq_true_eq] at hescape
      obtain ⟨rfl, rfl⟩ := hescape
      simp [Quoting.stays, Quoting.next, ih]
  | case4 rest hescape ih => simp [Quoting.stays, hclose, hopen, hquote, ih]
  | case5 d rest hescape hd => simp [Quoting.stays]
  | case6 c d rest hescape hother ih =>
      have hnext : (Quoting.inside closer).next c = .inside closer := by
        rw [escapes, Bool.and_eq_true, decide_eq_true_eq, decide_eq_true_eq] at hescape
        rw [Quoting.next, if_neg hescape, if_neg hother]
      simp [Quoting.stays, hnext, ih]

/-- A run that is not closed reaches to the end of the text. -/
theorem takeRun_of_open {closer : CodePoint} {t : Text} (h : closesRun closer t = false) :
    takeRun closer t = t := by
  fun_induction closesRun closer t with
  | case1 => rfl
  | case2 c => rfl
  | case3 c d rest hescape ih => rw [takeRun, if_pos hescape, ih h]
  | case4 rest hescape ih => rw [takeRun, if_neg hescape, if_pos rfl, if_pos rfl, ih h]
  | case5 d rest hescape hd => cases h
  | case6 c d rest hescape hother ih => rw [takeRun, if_neg hescape, if_neg hother, ih h]

/-- After a run its quote does not follow, because it would belong to the run. -/
theorem head?_drop_takeRun (closer : CodePoint) (t : Text) :
    (t.drop (takeRun closer t).length).head? ≠ some closer := by
  fun_induction takeRun closer t with
  | case1 => simp
  | case2 c => simp
  | case3 c d rest hescape ih => simpa using ih
  | case4 rest hescape ih => simpa using ih
  | case5 d rest hd hescape => simpa using hd
  | case6 c d rest hescape hother ih => simpa using ih

/-- A run that was taken is taken again, if what follows it now does not begin with its quote. -/
theorem takeRun_takeRun {closer : CodePoint} {t u : Text} (hu : u.head? ≠ some closer)
    (hend : t.drop (takeRun closer t).length = [] → u = []) :
    takeRun closer (takeRun closer t ++ u) = takeRun closer t := by
  fun_induction takeRun closer t with
  | case1 => simp [hend]
  | case2 c => simp [hend, takeRun]
  | case3 c d rest hescape ih =>
      rw [List.cons_append, List.cons_append, takeRun, if_pos hescape, ih (by simpa using hend)]
  | case4 rest hescape ih =>
      rw [List.cons_append, List.cons_append, takeRun, if_neg hescape, if_pos rfl, if_pos rfl,
        ih (by simpa using hend)]
  | case5 d rest hescape hd => exact takeRun_close (escapes_self closer) hu
  | case6 c d rest hescape hother ih =>
      rw [List.cons_append, takeRun_cons (by simpa using hescape) hother,
        ih (by simpa using hend)]

/-- A parenthesis that closes an inner group belongs to the outer one. -/
theorem takeGroup_close (depth : Nat) (t : Text) :
    takeGroup (depth + 1) .bare (.char ')' :: t) =
      (takeGroup depth .bare t).map (.char ')' :: ·) := by
  simp [takeGroup]

/-- A group that is closed does not go on when its text does. -/
theorem takeGroup_append {depth : Nat} {quoting : Quoting} {t body : Text}
    (h : takeGroup depth quoting t = some body) (u : Text) :
    takeGroup depth quoting (t ++ u) = some body := by
  induction t generalizing depth quoting body with
  | nil => cases h
  | cons c t ih =>
      rw [List.cons_append]
      by_cases hclose : quoting = .bare ∧ c = ')'
      · obtain ⟨rfl, rfl⟩ := hclose
        cases depth with
        | zero => simpa [takeGroup] using h
        | succ depth =>
            rw [takeGroup_close] at h ⊢
            obtain ⟨rest, hrest, rfl⟩ := Option.map_eq_some_iff.1 h
            rw [ih hrest, Option.map_some]
      · rw [takeGroup_cons hclose, Option.map_eq_some_iff] at h
        obtain ⟨rest, hrest, rfl⟩ := h
        rw [takeGroup_cons hclose, ih hrest, Option.map_some]

/-- A group stands before the parenthesis that closes it. -/
theorem takeGroup_prefix {depth : Nat} {quoting : Quoting} {t body : Text}
    (h : takeGroup depth quoting t = some body) : ∃ rest, t = body ++ .char ')' :: rest := by
  induction t generalizing depth quoting body with
  | nil => cases h
  | cons c t ih =>
      by_cases hclose : quoting = .bare ∧ c = ')'
      · obtain ⟨rfl, rfl⟩ := hclose
        cases depth with
        | zero =>
            cases h
            exact ⟨t, rfl⟩
        | succ depth =>
            rw [takeGroup_close] at h
            obtain ⟨body, hbody, rfl⟩ := Option.map_eq_some_iff.1 h
            obtain ⟨rest, rfl⟩ := ih hbody
            exact ⟨rest, rfl⟩
      · rw [takeGroup_cons hclose, Option.map_eq_some_iff] at h
        obtain ⟨body, hbody, rfl⟩ := h
        obtain ⟨rest, rfl⟩ := ih hbody
        exact ⟨rest, rfl⟩

/-- A group is closed by the parenthesis after it. -/
theorem takeGroup_takeGroup {depth : Nat} {quoting : Quoting} {t body : Text}
    (h : takeGroup depth quoting t = some body) :
    takeGroup depth quoting (body ++ [.char ')']) = some body := by
  induction t generalizing depth quoting body with
  | nil => cases h
  | cons c t ih =>
      by_cases hclose : quoting = .bare ∧ c = ')'
      · obtain ⟨rfl, rfl⟩ := hclose
        cases depth with
        | zero =>
            cases h
            rfl
        | succ depth =>
            rw [takeGroup_close] at h
            obtain ⟨body, hbody, rfl⟩ := Option.map_eq_some_iff.1 h
            rw [List.cons_append, takeGroup_close, ih hbody, Option.map_some]
      · rw [takeGroup_cons hclose, Option.map_eq_some_iff] at h
        obtain ⟨body, hbody, rfl⟩ := h
        rw [List.cons_append, takeGroup_cons hclose, ih hbody, Option.map_some]

/-- What belongs to a token stands in its text. -/
theorem leading_width_le (c : CodePoint) (rest : Text) : (leading c rest).2 ≤ rest.length := by
  rw [leading]
  split
  · exact (List.takeWhile_prefix _).length_le
  split
  · exact (takeRun_isPrefix _ _).length_le
  split
  · split
    · next body hbody =>
        obtain ⟨later, rfl⟩ := takeGroup_prefix hbody
        simp
    · exact Nat.le_refl _
  · exact Nat.zero_le _

/-! ## Places -/

/-- Tokens stand in their text, each one after those before it. -/
theorem tokensFrom_sorted (position skip : Nat) (t : Text) :
    (∀ x ∈ tokensFrom position skip t,
        position + skip ≤ x.start ∧ x.start < x.stop ∧ x.stop ≤ position + t.length) ∧
      (tokensFrom position skip t).Pairwise fun x y => x.stop ≤ y.start := by
  induction t generalizing position skip with
  | nil => cases skip <;> simp [tokensFrom]
  | cons c rest ih =>
      cases skip with
      | succ skip =>
          obtain ⟨hbounds, hsorted⟩ := ih (position + 1) skip
          refine ⟨fun x hx => ?_, hsorted⟩
          have hx := hbounds x hx
          rw [List.length_cons]
          omega
      | zero =>
          rw [tokensFrom]
          split
          · obtain ⟨hbounds, hsorted⟩ := ih (position + 1) 0
            refine ⟨fun x hx => ?_, hsorted⟩
            have hx := hbounds x hx
            rw [List.length_cons]
            omega
          · -- the tokens after this one start where the characters it takes have been passed over
            have hwidth := leading_width_le c rest
            generalize leading c rest = found at hwidth
            obtain ⟨lexeme, width⟩ := found
            obtain ⟨hbounds, hsorted⟩ := ih (position + 1) width
            refine ⟨fun x hx => ?_, List.pairwise_cons.2 ⟨fun x hx => (hbounds x hx).1, hsorted⟩⟩
            rw [List.length_cons]
            rcases List.mem_cons.1 hx with rfl | hx
            · dsimp only at hwidth ⊢
              omega
            · have hx := hbounds x hx
              omega

/-- A token is what is read where it starts, as far as that reaches. -/
theorem exists_leading {position skip : Nat} {t : Text} {x : Token}
    (h : x ∈ tokensFrom position skip t) :
    ∃ before c rest, t = before ++ c :: rest ∧ c.is Text.isBlank = false ∧
      x = ⟨(leading c rest).1, position + before.length,
        position + before.length + 1 + (leading c rest).2⟩ := by
  induction t generalizing position skip with
  | nil => cases skip <;> cases h
  | cons c rest ih =>
      have hlater : ∀ {skip : Nat}, x ∈ tokensFrom (position + 1) skip rest →
          ∃ before d later, c :: rest = before ++ d :: later ∧ d.is Text.isBlank = false ∧
            x = ⟨(leading d later).1, position + before.length,
              position + before.length + 1 + (leading d later).2⟩ := by
        intro skip hx
        obtain ⟨before, d, later, rfl, hd, rfl⟩ := ih hx
        refine ⟨c :: before, d, later, rfl, hd, ?_⟩
        rw [List.length_cons, Nat.add_right_comm position 1, Nat.add_assoc position]
      cases skip with
      | succ skip => exact hlater h
      | zero =>
          rw [tokensFrom] at h
          split at h
          · exact hlater h
          · next hblank =>
              rcases List.mem_cons.1 h with rfl | h
              · exact ⟨[], c, rest, rfl, Bool.eq_false_iff.2 hblank, rfl⟩
              · exact hlater h

/-! ## Closed texts -/

/-- Whether the token that begins with `c` when `rest` follows is closed, if it is a quoted run or a
group. -/
def leadingCloses (c : CodePoint) (rest : Text) : Bool :=
  match closer? c with
  | some closer => closesRun closer rest
  | none => c ≠ '(' || (takeGroup 0 .bare rest).isSome

/-- Whether all quoted runs and groups that are tokens of a text are closed in it.  The number counts
code points that are passed over. -/
def closesFrom : Nat → Text → Bool
  | _, [] => true
  | skip + 1, _ :: rest => closesFrom skip rest
  | 0, c :: rest =>
      if c.is Text.isBlank then closesFrom 0 rest
      else leadingCloses c rest && closesFrom (leading c rest).2 rest

/-- A closed token does not change when its text is continued, unless it is a word that goes on or a
run whose last quote is doubled then. -/
theorem leading_append {c : CodePoint} {rest u : Text} (h : leadingCloses c rest = true)
    (hword : u.head?.any isWordChar = false)
    (hquote : ∀ closer, closer? c = some closer → takeRun closer rest = rest →
      u.head? ≠ some closer) :
    leading c (rest ++ u) = leading c rest := by
  rw [leadingCloses] at h
  rw [leading, leading]
  split
  · have hnone : u.takeWhile isWordChar = [] := by
      cases u with
      | nil => rfl
      | cons d u =>
          have hd : isWordChar d = false := hword
          rw [List.takeWhile_cons, hd, if_neg Bool.false_ne_true]
    rw [List.takeWhile_append, hnone, List.append_nil]
    split
    · next hall => rw [(List.takeWhile_prefix isWordChar).eq_of_length hall]
    · rfl
  split
  · next closer hcloser =>
      simp only [hcloser] at h
      rw [takeRun_append h (hquote closer hcloser)]
  · next hcloser =>
      split
      · next hopen =>
          simp only [hopen, decide_not, decide_true, Bool.not_true, Bool.false_or] at h
          obtain ⟨body, hbody⟩ := Option.isSome_iff_exists.1 h
          rw [takeGroup_append hbody, hbody]
      · rfl

/-- No quote that closes a run is blank. -/
theorem isBlank_of_closer? {c closer : CodePoint} (h : closer? c = some closer) :
    closer.is Text.isBlank = false := by
  rw [closer?] at h
  split at h
  · next hquote =>
      cases h
      rw [isQuote, Bool.or_eq_true, Bool.or_eq_true, decide_eq_true_eq, decide_eq_true_eq,
        decide_eq_true_eq] at hquote
      rcases hquote with (rfl | rfl) | rfl <;> decide
  split at h
  · cases h
    decide
  · cases h

/-- A closed text is read as it is when a blank follows it, and then comes the text after it. -/
theorem tokensFrom_closed {skip : Nat} {t : Text} (h : closesFrom skip t = true)
    (hskip : skip ≤ t.length) {d : CodePoint} (hd : d.is Text.isBlank = true) (u : Text)
    (position : Nat) :
    tokensFrom position skip (t ++ d :: u) =
      tokensFrom position skip t ++ tokensFrom (position + t.length) 0 (d :: u) := by
  induction t generalizing position skip with
  | nil =>
      obtain rfl := Nat.le_zero.1 hskip
      rfl
  | cons c rest ih =>
      have hlength : position + (c :: rest).length = position + 1 + rest.length := by
        rw [List.length_cons]
        omega
      rw [List.cons_append, hlength]
      cases skip with
      | succ skip => exact ih h (Nat.le_of_succ_le_succ hskip) (position + 1)
      | zero =>
          rw [closesFrom] at h
          rw [tokensFrom, tokensFrom]
          split
          · next hblank =>
              rw [if_pos hblank] at h
              exact ih h (Nat.zero_le _) (position + 1)
          · next hblank =>
              rw [if_neg hblank, Bool.and_eq_true] at h
              -- a blank neither goes on with a word nor doubles the quote that ends a run
              have hword : (d :: u).head?.any isWordChar = false := by
                by_contra hword
                rw [isBlank_of_isWordChar (Bool.not_eq_false _ ▸ hword)] at hd
                cases hd
              have hquote : ∀ closer, closer? c = some closer → takeRun closer rest = rest →
                  (d :: u).head? ≠ some closer := by
                rintro closer hcloser - hhead
                cases hhead
                rw [isBlank_of_closer? hcloser] at hd
                cases hd
              rw [leading_append h.1 hword hquote]
              have hrest := ih h.2 (leading_width_le c rest) (position + 1)
              generalize leading c rest = found at hrest ⊢
              simp only [hrest, List.cons_append]

end SchemaDesk.Sql
