import SchemaDesk.Proofs.Sql.ClausesAbreast
import SchemaDesk.Proofs.Sql.Placed

/-!
# Texts apart from a literal

Two texts that are the same but for one string literal have the same tokens but for the one that
holds the literal.  Such token lists are read alike (`pairing_apart`), and whatever is found without
the token that holds the literal is the same in both texts: the attributes of a column
(`attributes_apart`) and the statements (`comparison_apart`).
-/

namespace SchemaDesk.Sql

/-! ## Holders -/

namespace Holder

variable {n : Nat} {x : Text → Token}

theorem start_le (h : Holder n x) (l : Text) : (x l).start ≤ n := by
  cases h with
  | literal => exact Nat.le_refl _
  | group hstart =>
      dsimp only
      omega

theorem start_eq (h : Holder n x) (l l' : Text) : (x l).start = (x l').start := by
  cases h <;> rfl

theorem stop_eq (h : Holder n x) : ∃ extra, ∀ l, (x l).stop = l.length + (n + extra) := by
  cases h with
  | literal => exact ⟨0, fun l => Nat.add_comm _ _⟩
  | @group d e start extra =>
      refine ⟨e.length + extra, fun l => ?_⟩
      dsimp only
      omega

theorem kin (h : Holder n x) (l l' : Text) : (x l).Kin (x l') := by
  cases h with
  | literal => exact Lexeme.Kin.literal _ _
  | group => exact Lexeme.Kin.group _ _

/-- A holder is no name. -/
theorem name? (h : Holder n x) (l : Text) : (x l).name? = none := by
  cases h <;> rfl

end Holder

/-! ## Token lists -/

/-- Token lists up to a place before two literals or at it: the tokens that hold the literals come,
and then the same tokens, further on by the lengths of the literals. -/
inductive Ahead (n : Nat) (x : Text → Token) (l l' : Text) : List Token → List Token → Prop where
  | here {us : List Token} : (∀ u ∈ us, n ≤ u.start) →
      Ahead n x l l' (x l :: us.map (Token.shift l.length)) (x l' :: us.map (Token.shift l'.length))
  | before {t : Token} {ts us : List Token} : t.stop ≤ n → Ahead n x l l' ts us →
      Ahead n x l l' (t :: ts) (t :: us)

/-- Token lists with two literals ahead, or after them. -/
inductive Apart (n : Nat) (x : Text → Token) (l l' : Text) : List Token → List Token → Prop where
  | ahead {ts us : List Token} : Ahead n x l l' ts us → Apart n x l l' ts us
  | behind {vs : List Token} : (∀ v ∈ vs, n ≤ v.start) →
      Apart n x l l' (vs.map (Token.shift l.length)) (vs.map (Token.shift l'.length))

/-- Tokens before two literals, holding them, or after them. -/
inductive Token.Apart (n : Nat) (x : Text → Token) (l l' : Text) : Token → Token → Prop where
  | before {t : Token} : t.stop ≤ n → Apart n x l l' t t
  | here : Apart n x l l' (x l) (x l')
  | behind {v : Token} : n ≤ v.start →
      Apart n x l l' (v.shift l.length) (v.shift l'.length)

section Lists

variable {n : Nat} {x : Text → Token} {l l' : Text} {ts us : List Token} {t u : Token}

theorem Surrounds.apart (h : Surrounds n ts x us) (l l' : Text) :
    Apart n x l l' (ts ++ x l :: us.map (Token.shift l.length))
      (ts ++ x l' :: us.map (Token.shift l'.length)) := by
  refine .ahead ?_
  obtain ⟨-, hbefore, hafter⟩ := h
  induction ts with
  | nil => exact .here hafter
  | cons t ts ih =>
      rw [List.forall_mem_cons] at hbefore
      exact .before hbefore.1 (ih hbefore.2)

theorem Ahead.cons (h : Ahead n x l l' (t :: ts) us) :
    ∃ u us', us = u :: us' ∧ t.Apart n x l l' u ∧ Apart n x l l' ts us' := by
  cases h with
  | here hafter => exact ⟨_, _, rfl, .here, .behind hafter⟩
  | before hstop h => exact ⟨_, _, rfl, .before hstop, .ahead h⟩

theorem Apart.cons (h : Apart n x l l' (t :: ts) us) :
    ∃ u us', us = u :: us' ∧ t.Apart n x l l' u ∧ Apart n x l l' ts us' := by
  generalize hts : t :: ts = all at h
  cases h with
  | ahead h =>
      subst hts
      exact h.cons
  | @behind vs hvs =>
      cases vs with
      | nil => cases hts
      | cons v vs =>
          cases hts
          rw [List.forall_mem_cons] at hvs
          exact ⟨_, _, rfl, .behind hvs.1, .behind hvs.2⟩

theorem Ahead.length_eq (h : Ahead n x l l' ts us) : us.length = ts.length := by
  induction h with
  | here => simp
  | before _ _ ih => rw [List.length_cons, List.length_cons, ih]

theorem pairing_apart (hx : Holder n x) (l l' : Text) :
    Pairing (Token.Apart n x l l') (Apart n x l l') 0 := by
  refine ⟨?_, ?_, Apart.cons, ?_⟩
  · intro t u h
    cases h with
    | before => exact Lexeme.Kin.refl t.lexeme
    | here => exact hx.kin l l'
    | @behind v => exact Lexeme.Kin.refl v.lexeme
  · intro us h
    generalize hts : [] = ts at h
    cases h with
    | ahead h => subst hts; cases h
    | @behind vs =>
        obtain rfl := List.map_eq_nil_iff.1 hts.symm
        rfl
  · intro ts us h
    cases h with
    | ahead h => exact h.length_eq
    | behind => rw [List.length_map, List.length_map, Nat.add_zero]

/-- The token that holds a literal is paired with the one that holds the other literal. -/
theorem Token.Apart.eq_of_holder (hx : Holder n x) (hl : l ≠ []) (h : (x l).Apart n x l l' u) :
    u = x l' := by
  have hlength := List.length_pos_iff.2 hl
  obtain ⟨extra, hstop⟩ := hx.stop_eq
  generalize ht : x l = t at h
  cases h with
  | before hle =>
      have hstop := hstop l
      rw [ht] at hstop
      omega
  | here => rfl
  | @behind v hle =>
      have hstart := hx.start_le l
      rw [ht, Token.shift] at hstart
      dsimp only at hstart
      omega

/-- Other tokens have the same lexemes. -/
theorem Token.Apart.lexeme_eq (h : t.Apart n x l l' u) (ht : t ≠ x l) : t.lexeme = u.lexeme := by
  cases h with
  | before => rfl
  | here => exact absurd rfl ht
  | behind => rfl

/-! ## Cutting out -/

/-- Tokens next to each other without the one that holds the literal are all before it or all after
it. -/
theorem Ahead.span {span span' rest rest' : List Token}
    (h : Ahead n x l l' (span ++ rest) (span' ++ rest')) (hlength : span.length = span'.length)
    (hx : x l ∉ span) : span' = span ∧ ∀ t ∈ span, t.stop ≤ n := by
  induction span generalizing span' with
  | nil =>
      obtain rfl := List.eq_nil_of_length_eq_zero hlength.symm
      exact ⟨rfl, by simp⟩
  | cons t span ih =>
      cases span' with
      | nil => cases hlength
      | cons u span' =>
          rw [List.mem_cons, not_or] at hx
          rw [List.cons_append, List.cons_append] at h
          generalize hts : span ++ rest = ts at h
          generalize hus : span' ++ rest' = us at h
          cases h with
          | here => exact absurd rfl hx.1
          | before hstop h =>
              subst hts hus
              obtain ⟨rfl, hall⟩ := ih h (Nat.succ.inj hlength) hx.2
              exact ⟨rfl, List.forall_mem_cons.2 ⟨hstop, hall⟩⟩

theorem Apart.span {span span' rest rest' : List Token}
    (h : Apart n x l l' (span ++ rest) (span' ++ rest')) (hlength : span.length = span'.length)
    (hx : x l ∉ span) :
    (span' = span ∧ ∀ t ∈ span, t.stop ≤ n) ∨
      ∃ vs : List Token, (∀ v ∈ vs, n ≤ v.start) ∧ span = vs.map (Token.shift l.length) ∧
        span' = vs.map (Token.shift l'.length) := by
  generalize hts : span ++ rest = all at h
  generalize hus : span' ++ rest' = all' at h
  cases h with
  | ahead h =>
      subst hts hus
      exact .inl (h.span hlength hx)
  | @behind vs hvs =>
      right
      obtain ⟨ws, ws', rfl, rfl, rfl⟩ := List.map_eq_append_iff.1 hts.symm
      obtain ⟨zs, zs', hsplit, rfl, rfl⟩ := List.map_eq_append_iff.1 hus.symm
      rw [List.length_map, List.length_map] at hlength
      obtain ⟨rfl, -⟩ := List.append_inj hsplit hlength
      exact ⟨ws, fun v hv => hvs v (List.mem_append_left _ hv), rfl, rfl⟩

theorem slice_behind {b : Text} {start : Nat} (h : b.length ≤ start) (l a : Text) (stop : Nat) :
    slice (b ++ (l ++ a)) (l.length + start) (l.length + stop) = slice (b ++ a) start stop := by
  obtain ⟨more, rfl⟩ := Nat.exists_eq_add_of_le h
  have hdrop : (b ++ (l ++ a)).drop (l.length + (b.length + more)) =
      (b ++ a).drop (b.length + more) := by
    rw [List.drop_length_add_append, Nat.add_left_comm, List.drop_length_add_append,
      List.drop_length_add_append]
  rw [slice, slice, hdrop, Nat.add_sub_add_left]

/-- A piece of the text without the token that holds the literal is the same in both texts. -/
theorem Apart.slice_eq {b a : Text} {span span' rest rest' : List Token}
    {first last first' last' : Token}
    (h : Apart b.length x l l' (span ++ rest) (span' ++ rest'))
    (hlength : span.length = span'.length) (hx : x l ∉ span) (hfirst : span.head? = some first)
    (hlast : span.getLast? = some last) (hfirst' : span'.head? = some first')
    (hlast' : span'.getLast? = some last') :
    slice (b ++ (l ++ a)) first.start last.stop =
      slice (b ++ (l' ++ a)) first'.start last'.stop := by
  obtain ⟨rfl, hstop⟩ | ⟨vs, hstart, rfl, rfl⟩ := h.span hlength hx
  · cases hfirst.symm.trans hfirst'
    cases hlast.symm.trans hlast'
    have hle := hstop last (List.mem_of_getLast? hlast)
    rw [slice_append hle, slice_append hle]
  · rw [List.head?_map] at hfirst hfirst'
    rw [List.getLast?_map] at hlast hlast'
    obtain ⟨v, hv, rfl⟩ := Option.map_eq_some_iff.1 hfirst
    obtain ⟨w, hw, rfl⟩ := Option.map_eq_some_iff.1 hlast
    rw [hv, Option.map_some, Option.some.injEq] at hfirst'
    rw [hw, Option.map_some, Option.some.injEq] at hlast'
    subst hfirst' hlast'
    have hle := hstart v (List.mem_of_mem_head? hv)
    exact (slice_behind hle l a w.stop).trans (slice_behind hle l' a w.stop).symm

end Lists

/-! ## Defaults -/

theorem literalRest_shift (n stop : Nat) (vs : List Token) :
    literalRest (n + stop) (vs.map (Token.shift n)) =
      (n + (literalRest stop vs).1, (literalRest stop vs).2.map (Token.shift n)) := by
  induction vs generalizing stop with
  | nil => rfl
  | cons v vs ih =>
      rw [List.map_cons, literalRest_cons, literalRest_cons]
      by_cases hjoin : v.start = stop ∧ v.lexeme.joins = true
      · have hshifted : (v.shift n).start = n + stop ∧ (v.shift n).lexeme.joins = true :=
          ⟨congrArg (n + ·) hjoin.1, hjoin.2⟩
        rw [if_pos hjoin, if_pos hshifted]
        exact ih v.stop
      · have hshifted : ¬((v.shift n).start = n + stop ∧ (v.shift n).lexeme.joins = true) :=
          fun h => hjoin ⟨Nat.add_left_cancel h.1, h.2⟩
        rw [if_neg hjoin, if_neg hshifted]
        rfl

section Defaults

variable {n : Nat} {x : Text → Token} {l l' : Text} {ts us : List Token} {t u : Token}

theorem Apart.of_literalRest {vs : List Token} (h : ∀ v ∈ vs, n ≤ v.start) (stop : Nat) :
    Apart n x l l' (literalRest (l.length + stop) (vs.map (Token.shift l.length))).2
      (literalRest (l'.length + stop) (vs.map (Token.shift l'.length))).2 := by
  rw [literalRest_shift, literalRest_shift]
  obtain ⟨used, hused, -⟩ := literalRest_spec stop vs
  refine .behind fun v hv => h v ?_
  rw [hused]
  exact List.mem_append_right _ hv

theorem Ahead.literalRest (hx : Holder n x) (h : Ahead n x l l' ts us) (stop : Nat) :
    Apart n x l l' (literalRest stop ts).2 (literalRest stop us).2 := by
  induction h generalizing stop with
  | @here us hus =>
      have hjoins : (x l).lexeme.joins = (x l').lexeme.joins := by cases hx <;> rfl
      rw [literalRest_cons, literalRest_cons, hx.start_eq l l', hjoins]
      obtain ⟨extra, hstop⟩ := hx.stop_eq
      split
      · rw [hstop, hstop]
        exact .of_literalRest hus _
      · exact .ahead (.here hus)
  | @before t ts us hstop h ih =>
      rw [literalRest_cons, literalRest_cons]
      split
      · exact ih t.stop
      · exact .ahead (.before hstop h)

/-- What is found in two texts that are the same but for a literal: without the token that holds the
literal, the same; from that token alone, what the literal says. -/
structure Attribute.Apart (x : Text → Token) (l l' : Text) (found : Attribute × List Token)
    (a : Attribute) : Prop where
  same : x l ∉ found.2 → a = found.1
  default : found.2 = [x l] → ∀ v, found.1 = .default v → ∀ w, (x l').lexeme = .literal w →
    a = .default (some w)
  comment : found.2 = [x l] → ∀ v, found.1 = .comment v → ∀ w, (x l').lexeme = .literal w →
    a = .comment w

theorem Attribute.Apart.refl (x : Text → Token) (l l' : Text) (found : Attribute × List Token)
    (h : found.2 ≠ [x l]) : Attribute.Apart x l l' found found.1 :=
  ⟨fun _ => rfl, fun hused => absurd hused h, fun hused => absurd hused h⟩

theorem take_one (t : Token) (rest : List Token) :
    (t :: rest).take ((t :: rest).length - rest.length) = [t] := by
  rw [List.length_cons, Nat.add_sub_cancel_left]
  rfl

/-- A default that is the literal is read as the other literal in the other text. -/
theorem readDefault_here (hx : Holder n x) (text text' : Text) (h : Apart n x l l' ts us) :
    Apart n x l l' (readDefault text (x l :: ts)).2 (readDefault text' (x l' :: us)).2 ∧
      Attribute.Apart x l l'
        (.default (readDefault text (x l :: ts)).1,
          (x l :: ts).take ((x l :: ts).length - (readDefault text (x l :: ts)).2.length))
        (.default (readDefault text' (x l' :: us)).1) := by
  have hlexeme : (∃ v w, (x l).lexeme = .literal v ∧ (x l').lexeme = .literal w) ∨
      ∃ b c, (x l).lexeme = .group b ∧ (x l').lexeme = .group c := by
    cases hx with
    | literal => exact .inl ⟨_, _, rfl, rfl⟩
    | group => exact .inr ⟨_, _, rfl, rfl⟩
  obtain ⟨v, w, hv, hw⟩ | ⟨b, c, hb, hc⟩ := hlexeme
  · simp only [readDefault, hv, hw, take_one]
    refine ⟨h, fun hmem => absurd List.mem_cons_self hmem, fun _ _ _ w' hw' => ?_, ?_⟩
    · rw [hw] at hw'
      cases hw'
      rfl
    · rintro - v' ⟨⟩
  · simp only [readDefault, hb, hc, take_one]
    refine ⟨h, fun hmem => absurd List.mem_cons_self hmem, fun _ _ _ w' hw' => ?_, ?_⟩
    · rw [hc] at hw'
      cases hw'
    · rintro - v' ⟨⟩

theorem taken_of_append {t : Token} {used left : List Token} :
    (t :: (used ++ left)).take ((t :: (used ++ left)).length - left.length) = t :: used := by
  have hlength : (t :: (used ++ left)).length - left.length = (t :: used).length := by
    simp only [List.length_cons, List.length_append]
    omega
  rw [hlength, ← List.cons_append, List.take_left]

/-- What follows a piece of the text is the same but for the literal, unless the piece begins with
the token that holds it. -/
theorem literalRest_apart (hx : Holder n x) (h : Apart n x l l' (t :: ts) (u :: us))
    (ht : t ≠ x l) : Apart n x l l' (literalRest t.stop ts).2 (literalRest u.stop us).2 := by
  generalize hts : t :: ts = all at h
  generalize hus : u :: us = all' at h
  cases h with
  | ahead h =>
      cases h with
      | here => exact absurd (List.cons.inj hts).1 ht
      | before hstop h =>
          cases hts
          cases hus
          exact h.literalRest hx _
  | @behind vs hvs =>
      cases vs with
      | nil => cases hts
      | cons v vs =>
          cases hts
          cases hus
          exact .of_literalRest (fun v hv => hvs v (List.mem_cons_of_mem _ hv)) v.stop

/-- A piece of the text ends where its last token does. -/
theorem exists_last_token (t : Token) (used : List Token) :
    ∃ last, (t :: used).getLast? = some last ∧
      (used.getLast?.map Token.stop).getD t.stop = last.stop := by
  refine ⟨used.getLast?.getD t, List.getLast?_cons, ?_⟩
  cases used.getLast? <;> rfl

/-- A default that is a piece of the text is the same piece in both texts, unless it has the token
that holds the literal. -/
theorem readDefault_pieces {b a : Text} (hx : Holder b.length x)
    (h : Apart b.length x l l' (t :: ts) (u :: us)) (ht : t ≠ x l)
    (hlexeme : t.lexeme = u.lexeme)
    (hpiece : ¬((∃ v, t.lexeme = .literal v) ∨ ∃ b, t.lexeme = .group b)) :
    Apart b.length x l l' (readDefault (b ++ (l ++ a)) (t :: ts)).2
        (readDefault (b ++ (l' ++ a)) (u :: us)).2 ∧
      Attribute.Apart x l l'
        (.default (readDefault (b ++ (l ++ a)) (t :: ts)).1,
          (t :: ts).take ((t :: ts).length - (readDefault (b ++ (l ++ a)) (t :: ts)).2.length))
        (.default (readDefault (b ++ (l' ++ a)) (u :: us)).1) := by
  have hleft := literalRest_apart hx h ht
  obtain ⟨used, hused, hstop⟩ := literalRest_spec t.stop ts
  obtain ⟨used', hused', hstop'⟩ := literalRest_spec u.stop us
  have hpiece' : ¬((∃ v, u.lexeme = .literal v) ∨ ∃ b, u.lexeme = .group b) := hlexeme ▸ hpiece
  rw [readDefault_piece (b ++ (l ++ a)) hpiece, readDefault_piece (b ++ (l' ++ a)) hpiece']
  generalize (literalRest t.stop ts).2 = left at hleft hused ⊢
  generalize (literalRest u.stop us).2 = left' at hleft hused' ⊢
  subst hused hused'
  refine ⟨hleft, fun hmem => ?_, fun htaken => ?_, fun _ => ?_⟩
  · rw [taken_of_append] at hmem
    have hlength : (t :: used).length = (u :: used').length := by
      have hall := (pairing_apart hx l l').length h
      have hrest := (pairing_apart hx l l').length hleft
      simp only [List.length_cons, List.length_append] at hall ⊢
      omega
    obtain ⟨last, hend, hlaststop⟩ := exists_last_token t used
    obtain ⟨last', hend', hlaststop'⟩ := exists_last_token u used'
    have hspans : Apart b.length x l l' ((t :: used) ++ left) ((u :: used') ++ left') := h
    have hslice : slice (b ++ (l ++ a)) t.start last.stop =
        slice (b ++ (l' ++ a)) u.start last'.stop :=
      hspans.slice_eq hlength hmem rfl hend rfl hend'
    rw [hstop, hlaststop, hstop', hlaststop', hslice]
  · rw [taken_of_append] at htaken
    exact absurd (List.cons.inj htaken).1 ht
  · rintro v ⟨⟩

/-- The default of a column compares in two texts that are the same but for a literal. -/
theorem readDefault_apart {b a : Text} (hx : Holder b.length x) (hl : l ≠ [])
    (h : Apart b.length x l l' ts us) :
    Apart b.length x l l' (readDefault (b ++ (l ++ a)) ts).2 (readDefault (b ++ (l' ++ a)) us).2 ∧
      Attribute.Apart x l l'
        (.default (readDefault (b ++ (l ++ a)) ts).1,
          ts.take (ts.length - (readDefault (b ++ (l ++ a)) ts).2.length))
        (.default (readDefault (b ++ (l' ++ a)) us).1) := by
  cases ts with
  | nil =>
      obtain rfl := (pairing_apart hx l l').eq_nil h
      exact ⟨h, .refl x l l' _ (by simp)⟩
  | cons t ts =>
      obtain ⟨u, us, rfl, htu, hrest⟩ := h.cons
      by_cases ht : t = x l
      · subst ht
        obtain rfl := htu.eq_of_holder hx hl
        exact readDefault_here hx _ _ hrest
      · have hlexeme := htu.lexeme_eq ht
        have hone : [t] ≠ [x l] := fun hsame => ht (List.cons.inj hsame).1
        by_cases hpiece : (∃ v, t.lexeme = .literal v) ∨ ∃ b, t.lexeme = .group b
        · obtain ⟨v, hv⟩ | ⟨b, hb⟩ := hpiece
          · simp only [readDefault, ← hlexeme, hv, take_one]
            exact ⟨hrest, .refl x l l' _ hone⟩
          · simp only [readDefault, ← hlexeme, hb, take_one]
            exact ⟨hrest, .refl x l l' _ hone⟩
        · exact readDefault_pieces hx h ht hlexeme hpiece

end Defaults

/-! ## Attributes and statements -/

section Comparisons

variable {before after b a : Text} {x : Text → Token} {l l' : Text}

theorem splitItems_frame (h : Frame before after) :
    ∃ (ps : List Text) (b a : Text) (qs : List Text), Frame b a ∧ ∀ l, IsLiteral l →
      splitItems (before ++ (l ++ after)) = ps ++ (b ++ (l ++ a)) :: qs := by
  obtain ⟨ps, b, a, qs, hframe, -, -, hitems⟩ := placedItems_frame h
  refine ⟨ps.map Prod.snd, b, a, qs, hframe, fun l hl => ?_⟩
  obtain ⟨rest, rfl, -, hplaced⟩ := hitems l hl
  rw [← map_placedItems, hplaced, List.map_append, List.map_cons]

/-- A group lists the same names whichever literal stands in it. -/
theorem namesIn_frame (h : Frame before after) (hl : IsLiteral l) (hl' : IsLiteral l') :
    namesIn (some (before ++ (l ++ after))) = namesIn (some (before ++ (l' ++ after))) := by
  obtain ⟨ps, b, a, qs, hframe, hitems⟩ := splitItems_frame h
  obtain ⟨ts, x, us, hsurrounds, htokens⟩ := tokenize_frame hframe
  have hname : (tokenize (b ++ (l ++ a))).head?.bind Token.name? =
      (tokenize (b ++ (l' ++ a))).head?.bind Token.name? := by
    rw [htokens l hl, htokens l' hl']
    cases ts with
    | nil => exact (hsurrounds.holder.name? l).trans (hsurrounds.holder.name? l').symm
    | cons t ts => rfl
  simp only [namesIn, Option.getD_some, hitems l hl, hitems l' hl', List.filterMap_append,
    List.filterMap_cons, hname]

theorem attributes_apart (hx : Holder b.length x) (hl : IsLiteral l) (hl' : IsLiteral l')
    (a : Text) :
    AttributeComparison (Token.Apart b.length x l l') (Apart b.length x l l') (b ++ (l ++ a))
      (b ++ (l' ++ a)) (Attribute.Apart x l l') := by
  have hne := hl.ne_nil
  refine ⟨?_, readDefault_apart hx hne, ?_, fun key used => ?_⟩
  · intro t u c d htu hc hd
    by_cases ht : t = x l
    · subst ht
      obtain rfl := htu.eq_of_holder hx hne
      cases hx with
      | literal => cases hc
      | group _ hframe =>
          cases hc
          cases hd
          exact namesIn_frame hframe hl hl'
    · rw [htu.lexeme_eq ht, hd] at hc
      cases hc
      rfl
  · intro t u v w htu hv hw
    refine ⟨fun hmem => ?_, ?_, fun hused _ _ w' hw' => ?_⟩
    · have ht : t ≠ x l := fun h => hmem (h ▸ List.mem_cons_self)
      rw [htu.lexeme_eq ht, hw] at hv
      cases hv
      rfl
    · rintro - v' ⟨⟩
    · obtain rfl := (List.cons.inj hused).1
      obtain rfl := htu.eq_of_holder hx hne
      rw [hw] at hw'
      cases hw'
      rfl
  · refine ⟨fun _ => rfl, ?_, ?_⟩ <;> rintro - v ⟨⟩

/-- Statements of two texts that are the same but for a literal: without the token that holds the
literal they are the same, and a table whose body holds the literal has the other one in its
place. -/
structure Statement.Apart (x : Text → Token) (l l' : Text) (found : Statement × List Token)
    (s : Statement) : Prop where
  same : x l ∉ found.2 → s = found.1
  create : found.2.find? Token.isGroup = some (x l) → ∀ name body options,
    found.1 = .createTable name body options → ∀ body', (x l').lexeme = .group body' →
      s = .createTable name body' options

theorem comparison_apart (hx : Holder b.length x) (hgroup : (x l).isGroup = true)
    (hl : IsLiteral l) (a : Text) :
    Comparison (Token.Apart b.length x l l') (Apart b.length x l l') (b ++ (l ++ a))
      (b ++ (l' ++ a)) (Statement.Apart x l l') := by
  have hne := hl.ne_nil
  refine ⟨?_, ?_, ?_⟩
  · intro t u htu
    by_cases ht : t = x l
    · subst ht
      obtain rfl := htu.eq_of_holder hx hne
      cases hx with
      | literal => cases hgroup
      | group => rfl
    · rw [optionText?, optionText?, htu.lexeme_eq ht]
  · intro t u c d used name options htu hc hd hfind
    refine ⟨fun hmem => ?_, fun hfind' name' body options' hs body' hbody' => ?_⟩
    · have ht : t ≠ x l := fun h => hmem (h ▸ List.mem_of_find?_eq_some hfind)
      rw [htu.lexeme_eq ht, hd] at hc
      cases hc
      rfl
    · obtain rfl := Option.some.inj (hfind.symm.trans hfind')
      obtain rfl := htu.eq_of_holder hx hne
      cases hs
      rw [hd] at hbody'
      cases hbody'
      rfl
  · intro span span' first first' last last' used name hspans hsubset
    refine ⟨fun hmem => ?_, fun _ name' body options hs => by cases hs⟩
    obtain ⟨rest, rest', hlists⟩ := hspans.lists
    have hspan : x l ∉ span := fun h => hmem (hsubset h)
    have hslice : slice (b ++ (l ++ a)) first.start last.stop =
        slice (b ++ (l' ++ a)) first'.start last'.stop :=
      hlists.slice_eq hspans.tokens.length_eq hspan hspans.first.1 hspans.last.1 hspans.first.2.1 hspans.last.2.1
    exact congrArg (Statement.alterTable name) hslice.symm

end Comparisons

end SchemaDesk.Sql
