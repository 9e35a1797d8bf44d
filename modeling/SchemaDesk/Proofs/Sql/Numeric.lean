import SchemaDesk.Proofs.Sql.Words

/-!
# Numeric literals

A numeric literal has an optional sign, digits with an optional fraction or a fraction alone, and an
optional exponent, which may have a sign of its own.  To the tokens it is several words and marks
without gaps between them (`tokensFrom_numeric`).  Of these the sign of the exponent is the one that
is neither a word nor a point, and what stands before it is `NumericLiteral.read`.
-/

namespace SchemaDesk.Sql

/-! ## Literals -/

/-- The sign of a number or of an exponent. -/
inductive Sign where
  | plus
  | minus
  deriving DecidableEq

namespace Sign

/-- A sign as it is written. -/
def symbol : Sign → CodePoint
  | .plus => '+'
  | .minus => '-'

/-- A sign as it is written, if there is one. -/
def text : Option Sign → Text
  | none => []
  | some sign => [sign.symbol]

/-- The sign of a literal or of an exponent is a token of its own. -/
theorem tokensFrom_symbol (sign : Sign) (position : Nat) (u : Text) :
    tokensFrom position 0 (sign.symbol :: u) =
      ⟨.mark sign.symbol, position, position + 1⟩ :: tokensFrom (position + 1) 0 u := by
  have hblank : sign.symbol.is Text.isBlank = false := by cases sign <;> decide
  have hleading : leading sign.symbol ([] ++ u) = (.mark sign.symbol, ([] : Text).length) := by
    cases sign <;> rfl
  exact tokensFrom_leading hblank hleading position

/-- A sign means nothing to a scanner, unless another dash comes next. -/
theorem solid_symbol (sign : Sign) {c : CodePoint} {t : Text} (hc : c ≠ '-')
    (h : Solid (c :: t)) : Solid (sign.symbol :: c :: t) := by
  cases sign with
  | plus =>
      have hplus : Solid [.char '+'] := .char (by decide)
      exact hplus.append h
  | minus =>
      have hnext : Quoting.bare.next (.char '-') = .bare := rfl
      have hdepth : ∀ depth, depthAfter depth (.char '-') = depth := fun _ => rfl
      have hwhole : ∀ depth u, piecesFrom depth .bare (.char '-' :: (c :: t ++ u)) =
          (.char '-' :: c :: t ++ (piecesFrom depth .bare u).1, (piecesFrom depth .bare u).2) := by
        intro depth u
        rw [piecesFrom_cons (by simp), if_pos rfl, hnext, hdepth, h.whole]
        rfl
      refine ⟨⟨fun u => ?_, fun depth u => ?_, fun depth u => hwhole (depth + 1) u⟩, hwhole⟩
      · have hkept := h.kept u
        show stripFrom (.code .bare) (.char '-' :: c :: (t ++ u)) = _
        rw [stripFrom, if_neg (fun hdash => hc hdash.2.2), if_neg (by simp), hnext]
        exact congrArg (CodePoint.char '-' :: ·) hkept
      · show takeGroup depth .bare (.char '-' :: (c :: t ++ u)) = _
        rw [takeGroup_cons (by simp), if_neg (by simp), hnext]
        exact (congrArg (Option.map _) (h.grouped depth u)).trans (Option.map_map _ _ _)

end Sign

/-- Decimal digits, at least one. -/
structure Digits where
  text : Text
  ne_nil : text ≠ []
  digits : text.all (·.is Char.isDigit) = true

theorem Digits.words (ds : Digits) : ds.text.all isWordChar = true := by
  refine List.all_eq_true.2 fun c hc => ?_
  have hdigit := List.all_eq_true.1 ds.digits c hc
  cases c with
  | surrogate i => cases hdigit
  | char c =>
      exact isDigit_cases (motive := fun c => isWordChar (.char c) = true) (by decide) hdigit

theorem Digits.exists_cons (ds : Digits) :
    ∃ c t, ds.text = c :: t ∧ c.is Char.isDigit = true := by
  cases htext : ds.text with
  | nil => exact absurd htext ds.ne_nil
  | cons c t =>
      have hdigits := ds.digits
      rw [htext, List.all_cons, Bool.and_eq_true] at hdigits
      exact ⟨c, t, rfl, hdigits.1⟩

theorem ne_dash_of_isDigit {c : CodePoint} (h : c.is Char.isDigit = true) : c ≠ '-' := by
  rintro rfl
  cases h

/-- The digits of a number before its exponent. -/
inductive Magnitude where
  | whole (ds : Digits)
  | pointed (ds : Digits) (decimals : Option Digits)
  | fraction (ds : Digits)

/-- A magnitude as it is written. -/
def Magnitude.text : Magnitude → Text
  | .whole ds => ds.text
  | .pointed ds none => ds.text ++ "."
  | .pointed ds (some decimals) => ds.text ++ "." ++ decimals.text
  | .fraction ds => "." ++ ds.text

/-- An exponent with its marker, which may be a small or a capital letter. -/
structure Exponent where
  capital : Bool
  sign : Option Sign
  digits : Digits

/-- The letter that begins an exponent. -/
def Exponent.marker (e : Exponent) : CodePoint :=
  if e.capital then 'E' else 'e'

theorem Exponent.isWordChar_marker (e : Exponent) : isWordChar e.marker = true := by
  rw [marker]
  split <;> decide

/-- A numeric literal of SQL. -/
structure NumericLiteral where
  sign : Option Sign
  magnitude : Magnitude
  exponent : Option Exponent

namespace NumericLiteral

/-- A literal as it is written. -/
def text (n : NumericLiteral) : Text :=
  Sign.text n.sign ++ n.magnitude.text ++
    match n.exponent with
    | none => []
    | some e => e.marker :: (Sign.text e.sign ++ e.digits.text)

/-- A literal up to the sign of its exponent, or all of it if its exponent has no sign. -/
def read (n : NumericLiteral) : Text :=
  match n.exponent with
  | none => n.text
  | some e =>
      if e.sign = none then n.text else Sign.text n.sign ++ n.magnitude.text ++ [e.marker]

/-! ## Pieces of a literal -/

/-- What of the exponent is written without a gap or a mark after the magnitude. -/
def suffix (n : NumericLiteral) : Text :=
  match n.exponent with
  | none => []
  | some e => e.marker :: (if e.sign = none then e.digits.text else [])

/-- The words and points after the sign. -/
def body (n : NumericLiteral) : List Piece :=
  match n.magnitude with
  | .whole ds => [.word (ds.text ++ n.suffix)]
  | .pointed ds none =>
      .word ds.text :: .mark '.' :: (if n.suffix = [] then [] else [.word n.suffix])
  | .pointed ds (some decimals) => [.word ds.text, .mark '.', .word (decimals.text ++ n.suffix)]
  | .fraction ds => [.mark '.', .word (ds.text ++ n.suffix)]

/-- The sign of the exponent and its digits. -/
def rest (n : NumericLiteral) : List Piece :=
  match n.exponent with
  | some { sign := some sign, digits, .. } => [.mark sign.symbol, .word digits.text]
  | _ => []

/-- The sign of a literal as a piece, if it has one. -/
def lead (n : NumericLiteral) : List Piece :=
  match n.sign with
  | none => []
  | some sign => [.mark sign.symbol]

/-- A literal as it is cut into tokens. -/
def pieces (n : NumericLiteral) : List Piece :=
  n.lead ++ (n.body ++ n.rest)

variable {n : NumericLiteral}

/-- The sign of an exponent, if there is one, is followed by the digits of the exponent. -/
theorem rest_cases (n : NumericLiteral) :
    n.rest = [] ∨ ∃ (sign : Sign) (digits : Digits),
      n.rest = [.mark sign.symbol, .word digits.text] := by
  rw [rest]
  match n.exponent with
  | none => exact .inl rfl
  | some { sign := none, .. } => exact .inl rfl
  | some { sign := some sign, digits, .. } => exact .inr ⟨sign, digits, rfl⟩

theorem textOf_lead (n : NumericLiteral) : textOf n.lead = Sign.text n.sign := by
  rw [lead]
  cases n.sign <;> rfl

theorem textOf_body (n : NumericLiteral) : textOf n.body = n.magnitude.text ++ n.suffix := by
  have hpoint : (Text.ofString ".") = [CodePoint.char '.'] := rfl
  rw [body]
  match n.magnitude with
  | .whole ds => simp [Magnitude.text, Piece.text]
  | .pointed ds none =>
      by_cases hsuffix : n.suffix = []
      · simp [Magnitude.text, Piece.text, hsuffix, hpoint]
      · simp [Magnitude.text, Piece.text, hsuffix, hpoint]
  | .pointed ds (some decimals) => simp [Magnitude.text, Piece.text, hpoint]
  | .fraction ds => simp [Magnitude.text, Piece.text, hpoint]

theorem text_eq (n : NumericLiteral) : n.text = textOf n.pieces := by
  rw [pieces, textOf_append, textOf_append, textOf_lead, textOf_body, text, suffix, rest]
  match n.exponent with
  | none => simp
  | some { sign := none, .. } => simp [Sign.text]
  | some { sign := some sign, .. } => simp [Sign.text, Piece.text, Exponent.marker]

theorem read_eq (n : NumericLiteral) : n.read = textOf (n.lead ++ n.body) := by
  rw [textOf_append, textOf_lead, textOf_body, read, text, suffix]
  match n.exponent with
  | none => simp
  | some { sign := none, .. } => simp [Sign.text]
  | some { sign := some sign, .. } => simp

/-- What is left out of a literal is the exponent from its sign on. -/
theorem text_eq_read (n : NumericLiteral) : n.text = n.read ++ textOf n.rest := by
  rw [n.text_eq, n.read_eq, pieces, ← List.append_assoc, textOf_append]

theorem read_eq_text_iff (n : NumericLiteral) :
    n.read = n.text ↔ ∀ e, n.exponent = some e → e.sign = none := by
  rw [n.text_eq_read, List.self_eq_append_right, rest]
  match n.exponent with
  | none => simp
  | some { sign := none, .. } => simp
  | some { sign := some sign, .. } => simp [Piece.text]

/-! ## Reading the pieces -/

theorem suffix_words (n : NumericLiteral) : n.suffix.all isWordChar = true := by
  rw [suffix]
  cases n.exponent with
  | none => rfl
  | some e =>
      show (e.marker :: _).all isWordChar = true
      rw [List.all_cons, e.isWordChar_marker]
      split
      · exact e.digits.words
      · rfl

theorem append_suffix (n : NumericLiteral) (ds : Digits) :
    ds.text ++ n.suffix ≠ [] ∧ (ds.text ++ n.suffix).all isWordChar = true := by
  refine ⟨List.append_ne_nil_of_left_ne_nil ds.ne_nil _, ?_⟩
  rw [List.all_append, ds.words, n.suffix_words]
  rfl

/-- The words and points of a literal are legible before anything that does not continue the last
word. -/
theorem body_legible (n : NumericLiteral) {next : Option CodePoint}
    (hnext : next.any isWordChar = false) : Legible next n.body := by
  have hword : ∀ {w : Text}, w ≠ [] ∧ w.all isWordChar = true → Legible next [.word w] :=
    fun hw => .cons (reads_word hw.1 hw.2 hnext) nofun .nil
  have hpoint : ∀ {ps : List Piece}, Legible next ps → Legible next (.mark '.' :: ps) :=
    fun hps => .cons rfl nofun hps
  have hwhole : ∀ {ds : Digits} {ps : List Piece}, Legible next (.mark '.' :: ps) →
      Legible next (.word ds.text :: .mark '.' :: ps) :=
    fun hps => .cons (reads_word (Digits.ne_nil _) (Digits.words _) rfl) nofun hps
  rw [body]
  match n.magnitude with
  | .whole ds => exact hword (n.append_suffix ds)
  | .pointed ds none =>
      refine hwhole (hpoint ?_)
      split
      · exact .nil
      · next hne => exact hword ⟨hne, n.suffix_words⟩
  | .pointed ds (some decimals) => exact hwhole (hpoint (hword (n.append_suffix decimals)))
  | .fraction ds => exact hpoint (hword (n.append_suffix ds))

/-- What follows the words and points of a literal does not continue the last word. -/
theorem rest_head (n : NumericLiteral) {u : Text} (hu : u.head?.any isWordChar = false) :
    (textOf n.rest ++ u).head?.any isWordChar = false := by
  rcases n.rest_cases with hrest | ⟨sign, digits, hrest⟩
  · rw [hrest]
    exact hu
  · rw [hrest]
    cases sign <;> rfl

/-- A literal is read as its pieces before anything that does not continue its last word. -/
theorem tokensFrom_numeric (n : NumericLiteral) {u : Text} (hu : u.head?.any isWordChar = false)
    (position : Nat) :
    tokensFrom position 0 (n.text ++ u) =
      spell position n.pieces ++ tokensFrom (position + n.text.length) 0 u := by
  have hlead : ∀ position v, tokensFrom position 0 (textOf n.lead ++ v) =
      spell position n.lead ++ tokensFrom (position + (textOf n.lead).length) 0 v := by
    intro position v
    rw [lead]
    cases n.sign with
    | none => rfl
    | some sign => exact sign.tokensFrom_symbol position v
  have hbody : ∀ position, tokensFrom position 0 (textOf n.body ++ (textOf n.rest ++ u)) =
      spell position n.body ++
        tokensFrom (position + (textOf n.body).length) 0 (textOf n.rest ++ u) :=
    tokensFrom_pieces (n.body_legible (n.rest_head hu))
  have hrest : ∀ position, tokensFrom position 0 (textOf n.rest ++ u) =
      spell position n.rest ++ tokensFrom (position + (textOf n.rest).length) 0 u := by
    intro position
    rcases n.rest_cases with hrest | ⟨sign, digits, hrest⟩
    · rw [hrest]
      rfl
    · -- the sign of an exponent stands apart from its digits
      have hword : Legible u.head? [.word digits.text] :=
        .cons (reads_word digits.ne_nil digits.words (by simpa using hu)) nofun .nil
      rw [hrest]
      show tokensFrom position 0 (sign.symbol :: (textOf [.word digits.text] ++ u)) = _
      rw [Sign.tokensFrom_symbol, tokensFrom_pieces hword]
      simp [spell, Piece.token?, Piece.lexeme?, Piece.text, Nat.add_comm, Nat.add_left_comm]
  rw [n.text_eq, pieces, textOf_append, textOf_append, List.append_assoc, List.append_assoc, hlead,
    hbody, hrest, spell_append, spell_append]
  simp only [List.append_assoc, List.length_append, Nat.add_assoc]

/-! ## A literal in an item -/

/-- The words and points of a literal begin with no dash. -/
theorem body_cons (n : NumericLiteral) :
    ∃ c t, textOf n.body = c :: t ∧ c ≠ CodePoint.char '-' := by
  rw [textOf_body]
  match n.magnitude with
  | .whole ds | .pointed ds none | .pointed ds (some _) =>
      obtain ⟨c, t, htext, hc⟩ := ds.exists_cons
      simp [Magnitude.text, htext, ne_dash_of_isDigit hc]
  | .fraction ds => exact ⟨_, _, rfl, by decide⟩

/-- A literal means nothing to a scanner. -/
theorem solid_text (n : NumericLiteral) : Solid n.text := by
  have hdigits : ∀ ds : Digits, Solid ds.text := fun ds =>
    .of_all (List.all_eq_true.2 fun c hc =>
      isSolidChar_of_isWordChar (List.all_eq_true.1 ds.words c hc))
  have hbody : Solid (textOf n.body) := by
    have hlegible : Legible none n.body := n.body_legible rfl
    exact hlegible.solid
  have hrest : Solid (textOf n.rest) := by
    rcases n.rest_cases with hrest | ⟨sign, digits, hrest⟩
    · rw [hrest]
      exact .nil
    · obtain ⟨c, t, htext, hc⟩ := digits.exists_cons
      have hsolid := hdigits digits
      rw [hrest]
      simp only [textOf_cons, textOf_nil, Piece.text, List.append_nil, htext] at hsolid ⊢
      exact sign.solid_symbol (ne_dash_of_isDigit hc) hsolid
  obtain ⟨c, t, htext, hc⟩ := n.body_cons
  rw [n.text_eq, pieces, textOf_append, textOf_append, textOf_lead]
  cases n.sign with
  | none => exact hbody.append hrest
  | some sign =>
      have hrests := hbody.append hrest
      rw [htext, List.cons_append] at hrests ⊢
      exact sign.solid_symbol hc hrests

/-- The text of a literal ends, and not with a blank. -/
theorem text_getLast? (n : NumericLiteral) :
    ∃ c, n.text.getLast? = some c ∧ c.is Text.isBlank = false := by
  have hdigits : ∀ (t : Text) (ds : Digits),
      ∃ c, (t ++ ds.text).getLast? = some c ∧ c.is Text.isBlank = false := by
    intro t ds
    obtain ⟨c, hc⟩ := Option.ne_none_iff_exists'.1 (mt List.getLast?_eq_none_iff.1 ds.ne_nil)
    refine ⟨c, by rw [List.getLast?_append, hc]; rfl, ?_⟩
    exact isBlank_of_isWordChar (List.all_eq_true.1 ds.words c (List.mem_of_getLast? hc))
  rw [text]
  match n.exponent with
  | some e =>
      have hlast := hdigits (Sign.text n.sign ++ n.magnitude.text ++ e.marker :: Sign.text e.sign)
        e.digits
      rwa [List.append_assoc, List.cons_append] at hlast
  | none =>
      rw [List.append_nil]
      match n.magnitude with
      | .whole ds => exact hdigits _ ds
      | .pointed ds none =>
          refine ⟨'.', ?_, by decide⟩
          rw [Magnitude.text, List.getLast?_append, List.getLast?_append]
          rfl
      | .pointed ds (some decimals) =>
          rw [Magnitude.text, ← List.append_assoc]
          exact hdigits _ decimals
      | .fraction ds =>
          rw [Magnitude.text, ← List.append_assoc]
          exact hdigits _ ds

end NumericLiteral

end SchemaDesk.Sql
