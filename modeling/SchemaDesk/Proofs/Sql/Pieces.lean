import SchemaDesk.Proofs.Sql.Layout

/-!
# Texts put together from tokens

A written text is a list of pieces: blanks, and tokens as they are written.  Reading such a text
gives its tokens back, each at its place, as long as no piece runs into the next one
(`tokenize_pieces`).  Whether it does is decided by the next character alone: a word must not be
followed by a character of words, and a quoted run not by its own quote.
-/

namespace SchemaDesk.Sql

/-- A blank, or a token as it is written. -/
inductive Piece where
  | gap (c : CodePoint)
  | word (w : Text)
  | name (quote : CodePoint) (n : Text)
  | literal (v : Text)
  | group (body : Text)
  | mark (c : CodePoint)
  deriving DecidableEq, Repr

namespace Piece

/-- A piece as it is written. -/
def text : Piece → Text
  | .gap c => [c]
  | .word w => w
  | .name quote n => quoteName quote n
  | .literal v => quoteLiteral v
  | .group body => parenthesized body
  | .mark c => [c]

/-- What a piece is read as; a blank is not read as anything. -/
def lexeme? : Piece → Option Lexeme
  | .gap _ => none
  | .word w => some (.word w)
  | .name _ n => some (.quoted n)
  | .literal v => some (.literal v)
  | .group body => some (.group body)
  | .mark c => some (.mark c)

/-- Whether a piece is read as itself before the given character, or at the end of the text. -/
def reads (next : Option CodePoint) : Piece → Bool
  | .gap c => c.is Text.isBlank
  | .word w => !w.isEmpty && w.all isWordChar && !next.any isWordChar
  | .name quote _ => (quote = '"' || quote = '`') && next ≠ some quote
  | .literal _ => next ≠ some (.char '\'')
  | .group _ => true
  | .mark c => !isWordChar c && !c.is Text.isBlank && c ≠ '[' && isSolidChar c

/-- The token that is read from a piece at a position. -/
def token? (position : Nat) (p : Piece) : Option Token :=
  p.lexeme?.map fun lexeme => ⟨lexeme, position, position + p.text.length⟩

end Piece

/-- The text of some pieces. -/
def textOf (ps : List Piece) : Text :=
  ps.flatMap Piece.text

/-- The tokens of some pieces, the first of which stands at a position. -/
def spell : Nat → List Piece → List Token
  | _, [] => []
  | position, p :: ps => (p.token? position).toList ++ spell (position + p.text.length) ps

/-- Whether all pieces are read as themselves when the given character follows the last one. -/
def readsBefore (next : Option CodePoint) : List Piece → Bool
  | [] => true
  | p :: ps => p.reads ((textOf ps).head?.or next) && readsBefore next ps

/-- Pieces that do not run into each other, whose groups end where they seem to. -/
structure Legible (next : Option CodePoint) (ps : List Piece) : Prop where
  reads : readsBefore next ps = true
  groups : ∀ body, .group body ∈ ps → Neutral body

@[simp] theorem textOf_nil : textOf [] = [] := rfl

@[simp] theorem textOf_cons (p : Piece) (ps : List Piece) :
    textOf (p :: ps) = p.text ++ textOf ps := rfl

@[simp] theorem textOf_append (ps qs : List Piece) :
    textOf (ps ++ qs) = textOf ps ++ textOf qs :=
  List.flatMap_append

theorem spell_append (position : Nat) (ps qs : List Piece) :
    spell position (ps ++ qs) =
      spell position ps ++ spell (position + (textOf ps).length) qs := by
  induction ps generalizing position with
  | nil => rfl
  | cons p ps ih =>
      rw [List.cons_append, spell, ih, spell, List.append_assoc, textOf_cons, List.length_append,
        Nat.add_assoc]

namespace Legible

variable {next : Option CodePoint} {p : Piece} {ps qs : List Piece}

theorem nil : Legible next [] :=
  ⟨rfl, fun _ h => absurd h List.not_mem_nil⟩

theorem cons (hp : p.reads ((textOf ps).head?.or next) = true)
    (hgroup : ∀ body, p = .group body → Neutral body) (h : Legible next ps) :
    Legible next (p :: ps) := by
  refine ⟨?_, fun body hbody => ?_⟩
  · rw [readsBefore, hp, h.reads]
    rfl
  · rcases List.mem_cons.1 hbody with hbody | hbody
    · exact hgroup body hbody.symm
    · exact h.groups body hbody

theorem tail (h : Legible next (p :: ps)) : Legible next ps := by
  have hreads := h.reads
  rw [readsBefore, Bool.and_eq_true] at hreads
  exact ⟨hreads.2, fun body hbody => h.groups body (List.mem_cons_of_mem _ hbody)⟩

theorem append (h : Legible ((textOf qs).head?.or next) ps) (h' : Legible next qs) :
    Legible next (ps ++ qs) := by
  induction ps with
  | nil => exact h'
  | cons p ps ih =>
      have hreads := h.reads
      rw [readsBefore, Bool.and_eq_true] at hreads
      refine cons ?_ (fun body hbody => h.groups body (by rw [hbody]; exact List.mem_cons_self))
        (ih h.tail)
      show p.reads ((textOf (ps ++ qs)).head?.or next) = true
      rw [textOf_append, List.head?_append, Option.or_assoc]
      exact hreads.1

end Legible

/-! ## Reading one piece -/

theorem Text.isAlphanumeric_of_isBlank {c : Char} (h : Text.isBlank c = true) :
    Text.isAlphanumeric c = false := by
  have hall : ∀ n ∈ [9, 10, 11, 12, 13, 28, 29, 30, 31, 32, 0x85, 0xA0, 0x1680, 0x2000, 0x2001,
      0x2002, 0x2003, 0x2004, 0x2005, 0x2006, 0x2007, 0x2008, 0x2009, 0x200A, 0x2028, 0x2029,
      0x202F, 0x205F, 0x3000], Text.isAlphanumeric (Char.ofNat n) = false := by
    decide +kernel
  have hmem : c.toNat ∈ [9, 10, 11, 12, 13, 28, 29, 30, 31, 32, 0x85, 0xA0, 0x1680, 0x2000, 0x2001,
      0x2002, 0x2003, 0x2004, 0x2005, 0x2006, 0x2007, 0x2008, 0x2009, 0x200A, 0x2028, 0x2029,
      0x202F, 0x205F, 0x3000] := by
    simp only [Text.isBlank, Bool.or_eq_true, Bool.and_eq_true, decide_eq_true_eq,
      beq_iff_eq] at h
    simp only [List.mem_cons, List.not_mem_nil, or_false]
    omega
  have hchar := hall _ hmem
  rwa [Char.ofNat_toNat] at hchar

/-- No character of words is a blank. -/
theorem isBlank_of_isWordChar {c : CodePoint} (h : isWordChar c = true) :
    c.is Text.isBlank = false := by
  cases c with
  | surrogate i => rfl
  | char c =>
      by_contra hblank
      rw [Bool.not_eq_false, CodePoint.is_char] at hblank
      have halpha := Text.isAlphanumeric_of_isBlank hblank
      have hother : ∀ d : Char, Text.isBlank d = false → c ≠ d := by
        rintro d hd rfl
        rw [hd] at hblank
        cases hblank
      have hunderscore := hother '_' (by decide)
      have hdollar := hother '$' (by decide)
      simp [isWordChar, halpha, hunderscore, hdollar] at h

/-- Characters of words mean nothing to a scanner. -/
theorem isSolidChar_of_isWordChar {c : CodePoint} (h : isWordChar c = true) :
    isSolidChar c = true := by
  have hother : ∀ d : CodePoint, isWordChar d = false → c ≠ d := by
    rintro d hd rfl
    rw [hd] at h
    cases h
  have hchars : c ≠ '\'' ∧ c ≠ '"' ∧ c ≠ '`' ∧ c ≠ '-' ∧ c ≠ '/' ∧ c ≠ '(' ∧ c ≠ ')' ∧ c ≠ ',' := by
    refine ⟨?_, ?_, ?_, ?_, ?_, ?_, ?_, ?_⟩ <;> exact hother _ (by decide)
  simp [isSolidChar, isPlain, isQuote, hchars]

/-- A character that neither escapes nor closes belongs to the run. -/
theorem takeRun_cons {closer c : CodePoint} (hescape : escapes closer c = false)
    (hclose : c ≠ closer) (t : Text) : takeRun closer (c :: t) = c :: takeRun closer t := by
  cases t with
  | nil => rfl
  | cons d t => rw [takeRun, hescape, if_neg Bool.false_ne_true, if_neg hclose]

/-- The closing quote ends the run when no other one follows. -/
theorem takeRun_close {closer : CodePoint} (hescape : escapes closer closer = false) {u : Text}
    (hu : u.head? ≠ some closer) : takeRun closer (closer :: u) = [closer] := by
  cases u with
  | nil => rfl
  | cons d u =>
      have hd : d ≠ closer := fun h => hu (by rw [h]; rfl)
      rw [takeRun, hescape, if_neg Bool.false_ne_true, if_pos rfl, if_neg hd]

theorem takeRun_doubled {quote : CodePoint} (hquote : quote ≠ '\'') (n : Text) {u : Text}
    (hu : u.head? ≠ some quote) :
    takeRun quote (doubled quote n ++ quote :: u) = doubled quote n ++ [quote] := by
  have hescape : ∀ c, escapes quote c = false := by
    intro c
    simp [escapes, hquote]
  induction n with
  | nil => exact takeRun_close (hescape quote) hu
  | cons c n ih =>
      by_cases hc : c = quote
      · rw [doubled, if_pos hc, List.cons_append, List.cons_append, takeRun, hescape,
          if_neg Bool.false_ne_true, if_pos rfl, if_pos rfl, ih]
        rfl
      · rw [doubled, if_neg hc, List.cons_append, takeRun_cons (hescape c) hc, ih]
        rfl

theorem takeRun_escapedLiteral (v : Text) {u : Text} (hu : u.head? ≠ some (.char '\'')) :
    takeRun '\'' (escapedLiteral v ++ .char '\'' :: u) = escapedLiteral v ++ [.char '\''] := by
  induction v with
  | nil => exact takeRun_close (by decide) hu
  | cons c v ih =>
      by_cases hb : c = '\\'
      · -- the backslash takes the doubled one after it into the run
        have hescape : escapes '\'' '\\' = true := rfl
        rw [escapedLiteral, if_pos (.inl hb), List.cons_append, List.cons_append, takeRun, hb,
          hescape, if_pos rfl, ih]
        rfl
      · have hescape : escapes '\'' c = false := by simp [escapes, hb]
        by_cases hq : c = '\''
        · rw [escapedLiteral, if_pos (.inr hq), List.cons_append, List.cons_append, takeRun,
            hescape, if_neg Bool.false_ne_true, if_pos hq, if_pos hq, ih]
          rfl
        · rw [escapedLiteral, if_neg (by simp [hb, hq]), List.cons_append,
            takeRun_cons hescape hq, ih]
          rfl

theorem runContents_closed (closer : CodePoint) (t : Text) :
    runContents closer (t ++ [closer]) = t := by
  simp [runContents]

/-- A token that begins with `c` and ends before `u` is read, and then the text after it. -/
theorem tokensFrom_leading {c : CodePoint} {rest u : Text} {lexeme : Lexeme}
    (hblank : c.is Text.isBlank = false)
    (h : leading c (rest ++ u) = (lexeme, rest.length)) (position : Nat) :
    tokensFrom position 0 (c :: rest ++ u) =
      ⟨lexeme, position, position + (c :: rest).length⟩ ::
        tokensFrom (position + (c :: rest).length) 0 u := by
  have hlength : position + 1 + rest.length = position + (c :: rest).length := by
    rw [List.length_cons]
    omega
  rw [List.cons_append, tokensFrom, hblank, if_neg Bool.false_ne_true, h]
  show _ :: tokensFrom (position + 1) rest.length (rest ++ u) = _
  rw [tokensFrom_skip, List.drop_left, hlength]

theorem leading_word {c : CodePoint} {rest u : Text} (hc : isWordChar c = true)
    (hrest : rest.all isWordChar = true) (hu : u.head?.any isWordChar = false) :
    leading c (rest ++ u) = (.word (c :: rest), rest.length) := by
  have htake : (rest ++ u).takeWhile isWordChar = rest := by
    rw [List.takeWhile_append_of_pos (List.all_eq_true.1 hrest)]
    cases u with
    | nil => simp
    | cons d u =>
        have hd : isWordChar d = false := hu
        rw [List.takeWhile_cons, hd, if_neg Bool.false_ne_true, List.append_nil]
  rw [leading, hc, if_pos rfl, htake]

/-- A name in quotes is read to the quote that closes it. -/
theorem leading_quoted {opener closer : CodePoint} (hcloser : closer? opener = some closer)
    (hword : isWordChar opener = false) (hopener : opener ≠ '\'') (hname : closer ≠ '\'') (n : Text)
    {u : Text} (hu : u.head? ≠ some closer) :
    leading opener (doubled closer n ++ [closer] ++ u) =
      (.quoted n, (doubled closer n ++ [closer]).length) := by
  have hrun : takeRun closer (doubled closer n ++ [closer] ++ u) =
      doubled closer n ++ [closer] := by
    rw [List.append_assoc]
    exact takeRun_doubled hname n hu
  rw [leading, hword, if_neg Bool.false_ne_true, hcloser]
  simp only [hrun, quotedLexeme, runContents_closed, if_neg hopener, undoubled_doubled]

theorem leading_quoteName {quote : CodePoint} (hquote : quote = '"' ∨ quote = '`') (n : Text)
    {u : Text} (hu : u.head? ≠ some quote) :
    leading quote (doubled quote n ++ [quote] ++ u) =
      (.quoted n, (doubled quote n ++ [quote]).length) := by
  rcases hquote with rfl | rfl
  · exact leading_quoted rfl (by decide) (by decide) (by decide) n hu
  · exact leading_quoted rfl (by decide) (by decide) (by decide) n hu

theorem leading_quoteLiteral (v : Text) {u : Text} (hu : u.head? ≠ some (.char '\'')) :
    leading '\'' (escapedLiteral v ++ [.char '\''] ++ u) =
      (.literal v, (escapedLiteral v ++ [CodePoint.char '\'']).length) := by
  have hword : isWordChar '\'' = false := by decide
  have hcloser : closer? '\'' = some (.char '\'') := rfl
  have hrun : takeRun '\'' (escapedLiteral v ++ [.char '\''] ++ u) =
      escapedLiteral v ++ [.char '\''] := by
    rw [List.append_assoc]
    exact takeRun_escapedLiteral v hu
  rw [leading, hword, if_neg Bool.false_ne_true, hcloser]
  simp only [hrun, quotedLexeme, runContents_closed, if_true, literalValue_escapedLiteral]

/-- An opening bracket is a group up to the bracket that closes it, or to the end of the text. -/
theorem leading_open (t : Text) :
    leading '(' t = ((takeGroup 0 .bare t).map fun body => (Lexeme.group body, body.length + 1)).getD
      (.group t, t.length) := by
  have hword : isWordChar '(' = false := by decide
  have hcloser : closer? '(' = none := rfl
  rw [leading, hword, if_neg Bool.false_ne_true, hcloser]
  simp only [if_true]
  cases takeGroup 0 .bare t <;> rfl

theorem leading_group {body : Text} (h : Neutral body) (u : Text) :
    leading '(' (body ++ [.char ')'] ++ u) =
      (.group body, (body ++ [CodePoint.char ')']).length) := by
  have hgroup : takeGroup 0 .bare (body ++ [.char ')'] ++ u) = some body := by
    rw [List.append_assoc]
    exact takeGroup_of_neutral h u
  rw [leading_open, hgroup, Option.map_some, Option.getD_some, List.length_append,
    List.length_singleton]

/-- A piece that does not run into what follows is read as its token. -/
theorem tokensFrom_piece {p : Piece} {u : Text} (h : p.reads u.head? = true)
    (hgroup : ∀ body, p = .group body → Neutral body) (position : Nat) :
    tokensFrom position 0 (p.text ++ u) =
      (p.token? position).toList ++ tokensFrom (position + p.text.length) 0 u := by
  cases p with
  | gap c =>
      have hblank : c.is Text.isBlank = true := h
      show tokensFrom position 0 (c :: u) = tokensFrom (position + 1) 0 u
      rw [tokensFrom, hblank, if_pos rfl]
  | word w =>
      simp only [Piece.reads, Bool.and_eq_true, Bool.not_eq_true'] at h
      obtain ⟨⟨hne, hall⟩, hu⟩ := h
      cases w with
      | nil => cases hne
      | cons c rest =>
          rw [List.all_cons, Bool.and_eq_true] at hall
          exact tokensFrom_leading (isBlank_of_isWordChar hall.1)
            (leading_word hall.1 hall.2 hu) position
  | name quote n =>
      simp only [Piece.reads, Bool.and_eq_true, Bool.or_eq_true, decide_eq_true_eq] at h
      have hblank : quote.is Text.isBlank = false := by
        rcases h.1 with rfl | rfl <;> decide
      exact tokensFrom_leading hblank (leading_quoteName h.1 n h.2) position
  | literal v =>
      have hu : u.head? ≠ some (.char '\'') := of_decide_eq_true h
      exact tokensFrom_leading (by decide) (leading_quoteLiteral v hu) position
  | group body =>
      exact tokensFrom_leading (by decide) (leading_group (hgroup body rfl) u) position
  | mark c =>
      simp only [Piece.reads, Bool.and_eq_true, Bool.not_eq_true', decide_eq_true_eq] at h
      obtain ⟨⟨⟨hword, hblank⟩, hbracket⟩, hsolid⟩ := h
      simp only [isSolidChar, isPlain, Bool.and_eq_true, Bool.not_eq_true', decide_eq_true_eq]
        at hsolid
      obtain ⟨⟨⟨⟨⟨hquote, -⟩, -⟩, hopen⟩, -⟩, -⟩ := hsolid
      have hcloser := closer?_eq_none hquote hbracket
      have hleading : leading c ([] ++ u) = (.mark c, ([] : Text).length) := by
        rw [leading, hword, if_neg Bool.false_ne_true, hcloser]
        show (if c = '(' then _ else _) = _
        rw [if_neg hopen]
        rfl
      exact tokensFrom_leading hblank hleading position

/-! ## Reading all pieces -/

/-- Legible pieces are read as their tokens, and then comes the text after them. -/
theorem tokensFrom_pieces {ps : List Piece} {u : Text} (h : Legible u.head? ps) (position : Nat) :
    tokensFrom position 0 (textOf ps ++ u) =
      spell position ps ++ tokensFrom (position + (textOf ps).length) 0 u := by
  induction ps generalizing position with
  | nil => rfl
  | cons p ps ih =>
      -- what follows a piece is the text of the later ones, and only then `u`
      have hreads := h.reads
      rw [readsBefore, Bool.and_eq_true, ← List.head?_append] at hreads
      have hgroup : ∀ body, p = .group body → Neutral body := by
        rintro body rfl
        exact h.groups body List.mem_cons_self
      rw [textOf_cons, List.append_assoc, tokensFrom_piece hreads.1 hgroup, ih h.tail, spell,
        List.append_assoc, List.length_append, Nat.add_assoc]

/-- Reading the text of legible pieces gives their tokens. -/
theorem tokenize_pieces {ps : List Piece} (h : Legible none ps) :
    tokenize (textOf ps) = spell 0 ps := by
  have htokens := tokensFrom_pieces (u := []) h 0
  rwa [List.append_nil, tokensFrom, List.append_nil] at htokens

/-- The text of legible pieces is solid. -/
theorem Legible.solid {next : Option CodePoint} {ps : List Piece} (h : Legible next ps) :
    Solid (textOf ps) := by
  induction ps with
  | nil => exact .nil
  | cons p ps ih =>
      refine Solid.append ?_ (ih h.tail)
      have hreads := h.reads
      rw [readsBefore, Bool.and_eq_true] at hreads
      have hp := hreads.1
      cases p with
      | gap c => exact .char (isSolidChar_of_blank hp)
      | word w =>
          simp only [Piece.reads, Bool.and_eq_true] at hp
          refine .of_all (List.all_eq_true.2 fun c hc => ?_)
          exact isSolidChar_of_isWordChar (List.all_eq_true.1 hp.1.2 c hc)
      | name quote n =>
          simp only [Piece.reads, Bool.and_eq_true, Bool.or_eq_true, decide_eq_true_eq] at hp
          refine .of_run ?_
          rcases hp.1 with rfl | rfl
          · exact isRun_quoteName rfl (by decide) n
          · exact isRun_quoteName rfl (by decide) n
      | literal v => exact .of_run (isRun_quoteLiteral v)
      | group body => exact .group (h.groups body List.mem_cons_self)
      | mark c =>
          simp only [Piece.reads, Bool.and_eq_true] at hp
          exact .char hp.2

end SchemaDesk.Sql
