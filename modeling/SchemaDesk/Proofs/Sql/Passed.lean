import SchemaDesk.Sql.Comment
import SchemaDesk.Sql.Ddl
import SchemaDesk.Sql.Items
import SchemaDesk.Sql.Token

/-!
# What the scanners pass over

Comments are removed, groups are measured and items are split by three scanners that read a text
character by character.  A text is `Neutral` when all three pass over it as it stands, whatever
comes after it, and `Solid` when it also holds no comma that separates.  Both are closed under
putting texts one after the other, so a long text is checked piece by piece.

A quoted run is solid whatever stands in it: the only characters of the run that a scanner meets
outside quotes are quotes.
-/

namespace SchemaDesk.Sql

/-! ## Quoted runs -/

/-- The state after a text. -/
def Quoting.after (quoting : Quoting) (t : Text) : Quoting :=
  t.foldl Quoting.next quoting

/-- Whether nothing but quotes is met outside quotes in a text. -/
def Quoting.stays : Quoting → Text → Bool
  | _, [] => true
  | quoting, c :: rest => (quoting ≠ .bare || isQuote c) && (quoting.next c).stays rest

@[simp] theorem Quoting.after_nil (quoting : Quoting) : quoting.after [] = quoting := rfl

@[simp] theorem Quoting.after_cons (quoting : Quoting) (c : CodePoint) (t : Text) :
    quoting.after (c :: t) = (quoting.next c).after t := rfl

@[simp] theorem Quoting.after_append (quoting : Quoting) (t u : Text) :
    quoting.after (t ++ u) = (quoting.after t).after u :=
  List.foldl_append

theorem Quoting.stays_append (quoting : Quoting) (t u : Text) :
    quoting.stays (t ++ u) = (quoting.stays t && (quoting.after t).stays u) := by
  induction t generalizing quoting with
  | nil => rfl
  | cons c t ih => rw [List.cons_append, stays, stays, ih, after_cons, Bool.and_assoc]

/-- A text that begins and ends outside quotes and stands in quotes in between. -/
structure IsRun (t : Text) : Prop where
  stays : Quoting.bare.stays t = true
  closed : Quoting.bare.after t = .bare

/-- A run is what stands inside one pair of quotes. -/
theorem IsRun.of_inside {quote : CodePoint} {t : Text} (hquote : isQuote quote = true)
    (hstays : (Quoting.inside quote).stays t = true)
    (hafter : (Quoting.inside quote).after t = .inside quote) :
    IsRun (quote :: (t ++ [quote])) := by
  have hopen := Quoting.next_of_isQuote hquote
  have hbackslash : quote ≠ '\\' := by
    rintro rfl
    exact absurd hquote (by decide)
  refine ⟨?_, ?_⟩
  · rw [Quoting.stays, hopen, Quoting.stays_append, hstays, hafter]
    simp [Quoting.stays, hquote]
  · rw [Quoting.after_cons, hopen, Quoting.after_append, hafter]
    simp [Quoting.next, hbackslash]

/-- Doubling the quotes of a name keeps it inside its quotes. -/
theorem stays_doubled {quote : CodePoint} (hquote : isQuote quote = true)
    (hname : quote ≠ '\'') (n : Text) :
    (Quoting.inside quote).stays (doubled quote n) = true ∧
      (Quoting.inside quote).after (doubled quote n) = .inside quote := by
  induction n with
  | nil => exact ⟨rfl, rfl⟩
  | cons c n ih =>
      by_cases hc : c = quote
      · -- the first quote of a pair ends the run and the second one begins it again
        have hbackslash : quote ≠ '\\' := by
          rintro rfl
          exact absurd hquote (by decide)
        simp [doubled, hc, Quoting.stays, Quoting.next, hquote, hbackslash, ih]
      · simp [doubled, hc, Quoting.stays, Quoting.next, hname, ih]

theorem isRun_quoteName {quote : CodePoint} (hquote : isQuote quote = true)
    (hname : quote ≠ '\'') (n : Text) : IsRun (quoteName quote n) :=
  .of_inside hquote (stays_doubled hquote hname n).1 (stays_doubled hquote hname n).2

/-- Escaping a text keeps it inside its quotes. -/
theorem stays_escapedLiteral (v : Text) :
    (Quoting.inside '\'').stays (escapedLiteral v) = true ∧
      (Quoting.inside '\'').after (escapedLiteral v) = .inside '\'' := by
  induction v with
  | nil => exact ⟨rfl, rfl⟩
  | cons c v ih =>
      by_cases hb : c = '\\'
      · simp [escapedLiteral, hb, Quoting.stays, Quoting.next, ih]
      · by_cases hq : c = '\''
        · have hquote : isQuote '\'' = true := by decide
          simp [escapedLiteral, hq, Quoting.stays, Quoting.next, hquote, ih]
        · simp [escapedLiteral, hb, hq, Quoting.stays, Quoting.next, ih]

theorem isRun_quoteLiteral (v : Text) : IsRun (quoteLiteral v) :=
  .of_inside rfl (stays_escapedLiteral v).1 (stays_escapedLiteral v).2

/-! ## The three scanners on a text that stays in quotes -/

section Stays

variable {quoting : Quoting} {t : Text}

/-- Any character but a closing parenthesis outside quotes belongs to the group. -/
theorem takeGroup_cons {depth : Nat} {c : CodePoint} (h : ¬(quoting = .bare ∧ c = ')')) :
    takeGroup depth quoting (c :: t) =
      (takeGroup (if quoting = .bare ∧ c = '(' then depth + 1 else depth) (quoting.next c) t).map
        (c :: ·) := by
  rw [takeGroup.eq_def]
  exact if_neg h

/-- Any character but a comma that separates belongs to the current piece. -/
theorem piecesFrom_cons {depth : Nat} {c : CodePoint}
    (h : ¬(quoting = .bare ∧ c = ',' ∧ depth = 0)) :
    piecesFrom depth quoting (c :: t) =
      (c :: (piecesFrom (if quoting = .bare then depthAfter depth c else depth)
          (quoting.next c) t).1,
        (piecesFrom (if quoting = .bare then depthAfter depth c else depth)
          (quoting.next c) t).2) := by
  rw [piecesFrom.eq_def]
  exact if_neg h

theorem stripFrom_stays (h : quoting.stays t = true) (u : Text) :
    stripFrom (.code quoting) (t ++ u) = t ++ stripFrom (.code (quoting.after t)) u := by
  induction t generalizing quoting with
  | nil => rfl
  | cons c t ih =>
      rw [Quoting.stays, Bool.and_eq_true] at h
      have hstep : ∀ v, stripFrom (.code quoting) (c :: v) =
          c :: stripFrom (.code (quoting.next c)) v := by
        intro v
        cases v with
        | nil => rfl
        | cons d v =>
            have hdash : ¬(quoting = .bare ∧ c = '-' ∧ d = '-') := by
              rintro ⟨rfl, rfl, -⟩
              exact absurd h.1 (by decide)
            have hslash : ¬(quoting = .bare ∧ c = '/' ∧ d = '*') := by
              rintro ⟨rfl, rfl, -⟩
              exact absurd h.1 (by decide)
            rw [stripFrom, if_neg hdash, if_neg hslash]
      rw [List.cons_append, hstep, ih h.2]
      rfl

theorem takeGroup_stays (h : quoting.stays t = true) (depth : Nat) (u : Text) :
    takeGroup depth quoting (t ++ u) =
      (takeGroup depth (quoting.after t) u).map (t ++ ·) := by
  induction t generalizing quoting with
  | nil => simp
  | cons c t ih =>
      rw [Quoting.stays, Bool.and_eq_true] at h
      have hclose : ¬(quoting = .bare ∧ c = ')') := by
        rintro ⟨rfl, rfl⟩
        exact absurd h.1 (by decide)
      have hopen : ¬(quoting = .bare ∧ c = '(') := by
        rintro ⟨rfl, rfl⟩
        exact absurd h.1 (by decide)
      rw [List.cons_append, takeGroup_cons hclose, if_neg hopen, ih h.2, Option.map_map]
      rfl

theorem piecesFrom_stays (h : quoting.stays t = true) (depth : Nat) (u : Text) :
    piecesFrom depth quoting (t ++ u) =
      (t ++ (piecesFrom depth (quoting.after t) u).1,
        (piecesFrom depth (quoting.after t) u).2) := by
  induction t generalizing quoting with
  | nil => rfl
  | cons c t ih =>
      rw [Quoting.stays, Bool.and_eq_true] at h
      have hcomma : ¬(quoting = .bare ∧ c = ',' ∧ depth = 0) := by
        rintro ⟨rfl, rfl, -⟩
        exact absurd h.1 (by decide)
      have hdepth : (if quoting = .bare then depthAfter depth c else depth) = depth := by
        by_cases hbare : quoting = .bare
        · -- outside quotes there are only quotes, and these are no parentheses
          have hopen : c ≠ '(' := by
            rintro rfl
            rw [hbare] at h
            exact absurd h.1 (by decide)
          have hclose : c ≠ ')' := by
            rintro rfl
            rw [hbare] at h
            exact absurd h.1 (by decide)
          rw [if_pos hbare, depthAfter, if_neg hopen, if_neg hclose]
        · rw [if_neg hbare]
      rw [List.cons_append, piecesFrom_cons hcomma, hdepth, ih h.2]
      rfl

end Stays

/-! ## Neutral and solid texts -/

/-- A text that all scanners pass over, outside quotes, whatever comes after it; its commas separate
nothing inside parentheses. -/
structure Neutral (t : Text) : Prop where
  kept : ∀ u, stripFrom (.code .bare) (t ++ u) = t ++ stripFrom (.code .bare) u
  grouped : ∀ depth u,
    takeGroup depth .bare (t ++ u) = (takeGroup depth .bare u).map (t ++ ·)
  inner : ∀ depth u, piecesFrom (depth + 1) .bare (t ++ u) =
    (t ++ (piecesFrom (depth + 1) .bare u).1, (piecesFrom (depth + 1) .bare u).2)

/-- A neutral text without a comma outside parentheses and quotes. -/
structure Solid (t : Text) : Prop extends Neutral t where
  whole : ∀ depth u, piecesFrom depth .bare (t ++ u) =
    (t ++ (piecesFrom depth .bare u).1, (piecesFrom depth .bare u).2)

/-- The characters that mean nothing to a scanner outside quotes. -/
def isPlain (c : CodePoint) : Bool :=
  !isQuote c && c ≠ '-' && c ≠ '/' && c ≠ '(' && c ≠ ')'

/-- The plain characters other than a comma. -/
def isSolidChar (c : CodePoint) : Bool :=
  isPlain c && c ≠ ','

theorem isQuote_of_isSolidChar {c : CodePoint} (h : isSolidChar c = true) : isQuote c = false := by
  simp only [isSolidChar, isPlain, Bool.and_eq_true, Bool.not_eq_true'] at h
  exact h.1.1.1.1.1

theorem next_of_isSolidChar {c : CodePoint} (h : isSolidChar c = true) :
    Quoting.bare.next c = .bare :=
  Quoting.next_of_not_isQuote (isQuote_of_isSolidChar h)

namespace Neutral

variable {t t' : Text}

theorem nil : Neutral [] := by
  constructor <;> simp

theorem append (h : Neutral t) (h' : Neutral t') : Neutral (t ++ t') := by
  refine ⟨fun u => ?_, fun depth u => ?_, fun depth u => ?_⟩
  · rw [List.append_assoc, h.kept, h'.kept, List.append_assoc]
  · rw [List.append_assoc, h.grouped, h'.grouped, Option.map_map]
    simp only [Function.comp_def, List.append_assoc]
  · rw [List.append_assoc, h.inner, h'.inner, List.append_assoc]

theorem char {c : CodePoint} (h : isPlain c = true) : Neutral [c] := by
  simp only [isPlain, Bool.and_eq_true, Bool.not_eq_true', decide_eq_true_eq, ne_eq] at h
  obtain ⟨⟨⟨⟨hquote, hdash⟩, hslash⟩, hopen⟩, hclose⟩ := h
  have hnext := Quoting.next_of_not_isQuote hquote
  have hdepth : ∀ depth, depthAfter depth c = depth := by
    intro depth
    rw [depthAfter, if_neg hopen, if_neg hclose]
  refine ⟨fun u => ?_, fun depth u => ?_, fun depth u => ?_⟩
  · cases u with
    | nil => rfl
    | cons d u =>
        show stripFrom (.code .bare) (c :: d :: u) = _
        rw [stripFrom, if_neg (fun h => hdash h.2.1), if_neg (fun h => hslash h.2.1), hnext]
        rfl
  · rw [List.singleton_append, takeGroup_cons (fun h => hclose h.2),
      if_neg (fun h => hopen h.2), hnext]
    rfl
  · rw [List.singleton_append, piecesFrom_cons (fun h => absurd h.2.2 (Nat.succ_ne_zero _)),
      if_pos rfl, hnext, hdepth]
    rfl

/-- A text of plain characters. -/
theorem of_all (h : t.all isPlain = true) : Neutral t := by
  induction t with
  | nil => exact nil
  | cons c t ih =>
      rw [List.all_cons, Bool.and_eq_true] at h
      exact (char h.1).append (ih h.2)

end Neutral

namespace Solid

variable {t t' : Text}

theorem nil : Solid [] :=
  ⟨.nil, by simp⟩

theorem append (h : Solid t) (h' : Solid t') : Solid (t ++ t') := by
  refine ⟨h.toNeutral.append h'.toNeutral, fun depth u => ?_⟩
  rw [List.append_assoc, h.whole, h'.whole, List.append_assoc]

theorem char {c : CodePoint} (h : isSolidChar c = true) : Solid [c] := by
  rw [isSolidChar, Bool.and_eq_true, decide_eq_true_eq] at h
  refine ⟨.char h.1, fun depth u => ?_⟩
  cases depth with
  | succ depth => exact (Neutral.char h.1).inner depth u
  | zero =>
      have hplain := h.1
      simp only [isPlain, Bool.and_eq_true, Bool.not_eq_true', decide_eq_true_eq, ne_eq] at hplain
      obtain ⟨⟨⟨⟨hquote, -⟩, -⟩, hopen⟩, hclose⟩ := hplain
      rw [List.singleton_append, piecesFrom_cons (fun hc => h.2 hc.2.1), if_pos rfl, depthAfter,
        if_neg hopen, if_neg hclose, Quoting.next_of_not_isQuote hquote]
      rfl

/-- A text of plain characters without commas. -/
theorem of_all (h : t.all isSolidChar = true) : Solid t := by
  induction t with
  | nil => exact nil
  | cons c t ih =>
      rw [List.all_cons, Bool.and_eq_true] at h
      exact (char h.1).append (ih h.2)

/-- A quoted run is solid whatever stands in it. -/
theorem of_run (h : IsRun t) : Solid t := by
  refine ⟨⟨fun u => ?_, fun depth u => ?_, fun depth u => ?_⟩, fun depth u => ?_⟩
  · rw [stripFrom_stays h.stays, h.closed]
  · rw [takeGroup_stays h.stays, h.closed]
  · rw [piecesFrom_stays h.stays, h.closed]
  · rw [piecesFrom_stays h.stays, h.closed]

end Solid

/-! ## Groups -/

/-- A text in parentheses. -/
def parenthesized (body : Text) : Text :=
  .char '(' :: (body ++ [.char ')'])

/-- A group is measured to the parenthesis that closes it. -/
theorem takeGroup_of_neutral {body : Text} (h : Neutral body) (u : Text) :
    takeGroup 0 .bare (body ++ .char ')' :: u) = some body := by
  rw [h.grouped, takeGroup, if_pos ⟨rfl, rfl⟩]
  simp

/-- A group is solid: the commas in it are inside parentheses. -/
theorem Solid.group {body : Text} (h : Neutral body) : Solid (parenthesized body) := by
  have hopen : Quoting.bare.next (.char '(') = .bare := rfl
  have hclose : Quoting.bare.next (.char ')') = .bare := rfl
  have hsplit : ∀ u, parenthesized body ++ u = .char '(' :: (body ++ .char ')' :: u) := by
    intro u
    simp [parenthesized]
  have hwhole : ∀ depth u, piecesFrom depth .bare (parenthesized body ++ u) =
      (parenthesized body ++ (piecesFrom depth .bare u).1, (piecesFrom depth .bare u).2) := by
    intro depth u
    -- the body is passed one level down, and the closing parenthesis comes back up
    have hdown : piecesFrom (depth + 1) .bare (.char ')' :: u) =
        (.char ')' :: (piecesFrom depth .bare u).1, (piecesFrom depth .bare u).2) := by
      rw [piecesFrom_cons (by simp), if_pos rfl, hclose]
      rfl
    have hup : depthAfter depth (.char '(') = depth + 1 := rfl
    rw [hsplit, piecesFrom_cons (by simp), if_pos rfl, hopen, hup, h.inner, hdown, hsplit]
  refine ⟨⟨fun u => ?_, fun depth u => ?_, fun depth u => hwhole (depth + 1) u⟩, hwhole⟩
  · have hparen : ∀ c : CodePoint, c = .char '(' ∨ c = .char ')' → ∀ v,
        stripFrom (.code .bare) (c :: v) = c :: stripFrom (.code .bare) v := by
      rintro c (rfl | rfl) v <;> cases v <;> simp [stripFrom, hopen, hclose]
    rw [hsplit, hparen _ (.inl rfl), h.kept, hparen _ (.inr rfl), hsplit]
  · rw [hsplit, takeGroup_cons (by simp), if_pos ⟨rfl, rfl⟩, hopen, h.grouped, takeGroup,
      if_pos ⟨rfl, rfl⟩, Option.map_map, Option.map_map]
    simp [Function.comp_def, parenthesized]

end SchemaDesk.Sql
