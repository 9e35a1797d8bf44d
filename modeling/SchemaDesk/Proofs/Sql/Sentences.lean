import SchemaDesk.Proofs.Sql.Pieces
import SchemaDesk.Proofs.Sql.Turns
import SchemaDesk.Sql.Statement

/-!
# The statements of a written text

A script is written in rows: empty ones, comments, and one statement a row.  Looking for statements
in the text finds exactly those that were written, in order (`statements_rows`): `CREATE TABLE` with
its body, and `ALTER TABLE` with its actions as they stand in the text.

The loop that looks for statements takes one turn for each statement, and the turn takes the tokens
up to the semicolon (`turns_sentence`).
-/

namespace SchemaDesk.Sql

/-! ## Places in a text -/

/-- Pieces that end with a word end where their last token does. -/
theorem spell_getLast? (position : Nat) (ps : List Piece) (w : Text) :
    (spell position (ps ++ [.word w])).getLast?.map Token.stop =
      some (position + (textOf (ps ++ [.word w])).length) := by
  rw [spell_append, List.getLast?_append]
  simp [spell, Piece.token?, Piece.lexeme?, Piece.text, Nat.add_assoc]

/-! ## Sentences -/

/-- Whether a piece can stand inside a statement without ending it. -/
def Piece.staysInside : Piece → Bool
  | .word w => !openers.contains w.upper
  | .mark c => c ≠ ';'
  | _ => true

theorem spell_inActions {ps : List Piece} (h : ps.all Piece.staysInside = true) (position : Nat) :
    (spell position ps).all inActions = true := by
  induction ps generalizing position with
  | nil => rfl
  | cons p ps ih =>
      rw [List.all_cons, Bool.and_eq_true] at h
      rw [spell, List.all_append, ih h.2, Bool.and_true]
      cases p with
      | word w => simpa [Piece.token?, Piece.lexeme?, inActions, Token.isMark, Token.isKeyword,
          Piece.staysInside] using h.1
      | mark c => simpa [Piece.token?, Piece.lexeme?, inActions, Token.isMark, Token.isKeyword,
          Piece.staysInside] using h.1
      | _ => rfl

/-- A statement to be written: a table with its body, or what is asked of a table. -/
inductive Sentence where
  | create (name body : Text)
  | alter (name : Text) (actions : List Piece)

namespace Sentence

/-- The name of the table that a statement is about. -/
def name : Sentence → Text
  | .create name _ => name
  | .alter name _ => name

/-- A statement as it is written, with the given quotes around the name. -/
def pieces (quote : CodePoint) : Sentence → List Piece
  | .create name body =>
      [.word "CREATE", .gap ' ', .word "TABLE", .gap ' ', .name quote name, .gap ' ', .group body,
        .mark ';']
  | .alter name actions =>
      [.word "ALTER", .gap ' ', .word "TABLE", .gap ' ', .name quote name, .gap ' '] ++
        (actions ++ [.mark ';'])

/-- What a statement is read as. -/
def statement : Sentence → Statement
  | .create name body => .createTable name body {}
  | .alter name actions => .alterTable name (textOf actions)

/-- Actions that can be cut out of a text: they begin and end with words and do not end the
statement. -/
structure Actions (ps : List Piece) : Prop where
  first : ∃ w rest, ps = .word w :: rest
  last : ∃ rest w, ps = rest ++ [.word w]
  legible : Legible (some (.char ';')) ps
  inside : ps.all Piece.staysInside = true

/-- Actions run from the start of their first token, which is a word, to the end of their last
one. -/
theorem Actions.span {ps : List Piece} (h : Actions ps) (position : Nat) :
    ∃ first last w, (spell position ps).head? = some first ∧ first.start = position ∧
      first.lexeme = .word w ∧ (spell position ps).getLast? = some last ∧
      last.stop = position + (textOf ps).length := by
  obtain ⟨w, rest, hfirst⟩ := h.first
  obtain ⟨init, v, hlast⟩ := h.last
  have hend := spell_getLast? position init v
  rw [← hlast, Option.map_eq_some_iff] at hend
  obtain ⟨last, hend, hstop⟩ := hend
  refine ⟨⟨.word w, position, position + w.length⟩, last, w, ?_, rfl, rfl, hend, hstop⟩
  rw [hfirst]
  rfl

/-- What a statement may consist of: a name that is not blank, and a body or actions that the
scanners pass over. -/
structure WellFormed (s : Sentence) : Prop where
  trim : s.name.trim = s.name
  ne_nil : s.name ≠ []
  body : ∀ name body, s = .create name body → Neutral body
  actions : ∀ name actions, s = .alter name actions → Actions actions

/-- What is asked of a table is legible, whatever follows its semicolon. -/
theorem Actions.legible_alter {actions : List Piece} (h : Actions actions) (name : Text)
    {quote : CodePoint} (hquote : quote = '"' ∨ quote = '`') (next : Option CodePoint) :
    Legible next ((alter name actions).pieces quote) := by
  obtain ⟨w, rest, rfl⟩ := h.first
  refine Legible.append ?_ (Legible.append h.legible ?_)
  · refine ⟨?_, fun other hother => ?_⟩
    · rcases hquote with rfl | rfl <;> rfl
    · simp at hother
  · exact ⟨rfl, fun other hother => by simp at hother⟩

/-- A well-formed statement is legible, whatever follows its semicolon. -/
theorem WellFormed.legible {s : Sentence} (h : s.WellFormed) {quote : CodePoint}
    (hquote : quote = '"' ∨ quote = '`') (next : Option CodePoint) :
    Legible next (s.pieces quote) := by
  cases s with
  | create name body =>
      refine ⟨?_, fun other hother => ?_⟩
      · rcases hquote with rfl | rfl <;> rfl
      · rw [pieces] at hother
        simp only [List.mem_cons, List.not_mem_nil, or_false, reduceCtorEq, false_or,
          Piece.group.injEq] at hother
        rw [hother]
        exact h.body name body rfl
  | alter name actions => exact (h.actions name actions rfl).legible_alter name hquote next

end Sentence

/-- A table is read from a name and a group, and then its options. -/
theorem createTurn_quoted {written name : Text} (body : Text) (htrim : written.trim = name)
    (hne : name ≠ []) (a b c d e f : Nat) (rest : List Token) :
    createTurn (⟨.word "TABLE", a, b⟩ :: ⟨.quoted written, c, d⟩ :: ⟨.group body, e, f⟩ :: rest) =
      .next (some (.createTable name body (readOptions rest).1)) (readOptions rest).2 := by
  rw [createTurn, List.dropWhile_cons, if_neg (by simp [Token.isKeyword]; decide), after?,
    if_pos (by simp [Token.isKeyword]; decide)]
  have hskip : ∀ (later : List Token),
      skipPhrase ["IF", "NOT", "EXISTS"] (⟨.quoted written, c, d⟩ :: later) =
        ⟨.quoted written, c, d⟩ :: later := fun _ => rfl
  have hname := readName_alone ⟨.quoted written, c, d⟩ (⟨.group body, e, f⟩ :: rest) rfl htrim hne
    rfl
  simp only [hskip, hname, readGroup]

/-- The turn that reads a table takes the tokens up to its semicolon. -/
theorem createTurn_pieces (quote : CodePoint) {name : Text} (body : Text)
    (htrim : name.trim = name) (hne : name ≠ []) (position : Nat) (rest : List Token) :
    createTurn (spell position [.gap ' ', .word "TABLE", .gap ' ', .name quote name, .gap ' ',
        .group body, .mark ';'] ++ rest) =
      .next (some (.createTable name body {})) rest := by
  simp only [spell, Piece.token?, Piece.lexeme?, Option.map_none, Option.map_some,
    Option.toList_none, Option.toList_some, List.nil_append, List.cons_append]
  have hoptions : ∀ (a b : Nat),
      readOptions (⟨.mark (.char ';'), a, b⟩ :: rest) = ({}, rest) := by
    intro a b
    have hstop : optionsTurn ⟨.mark (.char ';'), a, b⟩ rest = .stop rest := rfl
    rw [readOptions, turns_stop hstop]
    rfl
  rw [createTurn_quoted body htrim hne, hoptions]

/-- The turn that reads what is asked of a table takes the tokens up to its semicolon, and cuts the
actions out of the text. -/
theorem alterTurn_pieces (quote : CodePoint) {written name : Text} {actions : List Piece}
    (htrim : written.trim = name) (hne : name ≠ []) (h : Sentence.Actions actions)
    (before after : Text) (start position : Nat) (hposition : before.length = position)
    (rest : List Token) :
    alterTurn (before ++ (textOf actions ++ after))
        (spell start [.gap ' ', .word "TABLE", .gap ' ', .name quote written, .gap ' '] ++
          spell position (actions ++ [.mark ';']) ++ rest) =
      .next (some (.alterTable name (textOf actions))) rest := by
  have hinside := spell_inActions h.inside position
  obtain ⟨first, last, w, hhead, hstart, hword, hend, hstop⟩ := h.span position
  rw [spell_append, List.append_assoc, List.append_assoc]
  generalize spell position actions = spelled at *
  simp only [spell, Piece.token?, Piece.lexeme?, Option.map_none, Option.map_some,
    Option.toList_none, Option.toList_some, List.nil_append, List.cons_append, List.append_nil]
  generalize hmark : (⟨.mark (.char ';'), _, _⟩ : Token) = mark
  have hskip : ∀ (a b : Nat) (later : List Token),
      skipPhrase ["IF", "EXISTS"] (skip ["ONLY"] (⟨.quoted written, a, b⟩ :: later)) =
        ⟨.quoted written, a, b⟩ :: later := fun _ _ _ => rfl
  -- the actions begin with a word, so no point continues the name of the table
  have hpoint : (spelled ++ mark :: rest).head?.any (Token.isMark '.') = false := by
    rw [List.head?_append, hhead]
    simp [Token.isMark, hword]
  have hends : inActions mark = false := by
    rw [← hmark]
    rfl
  have htake : (spelled ++ mark :: rest).takeWhile inActions = spelled := by
    rw [List.takeWhile_append_of_pos (List.all_eq_true.1 hinside), List.takeWhile_cons, hends,
      if_neg Bool.false_ne_true, List.append_nil]
  have hdrop : (spelled ++ mark :: rest).dropWhile inActions = mark :: rest := by
    rw [List.dropWhile_append_of_pos (List.all_eq_true.1 hinside), List.dropWhile_cons, hends,
      if_neg Bool.false_ne_true]
  have hsemicolon : skipMark ';' (mark :: rest) = rest := by
    rw [← hmark]
    rfl
  have hslice : slice (before ++ (textOf actions ++ after)) first.start last.stop =
      textOf actions := by
    rw [hstart, hstop, ← hposition]
    exact slice_middle before (textOf actions) after
  rw [alterTurn, after?, if_pos (by simp [Token.isKeyword]; decide)]
  simp only [hskip]
  rw [readName_alone _ _ (n := name) rfl htrim hne hpoint]
  simp only [htake, hdrop, hhead, hend, hsemicolon, hslice]

theorem statementTurn_create (text : Text) (start stop : Nat) (rest : List Token) :
    statementTurn text ⟨.word "CREATE", start, stop⟩ rest = createTurn rest := by
  rw [statementTurn, if_pos (by simp [Token.isKeyword]; decide)]

theorem statementTurn_alter (text : Text) (start stop : Nat) (rest : List Token) :
    statementTurn text ⟨.word "ALTER", start, stop⟩ rest = alterTurn text rest := by
  rw [statementTurn, if_neg (by simp [Token.isKeyword]; decide),
    if_pos (by simp [Token.isKeyword]; decide)]

/-- What is asked of a table takes its own tokens, and the name of the table is read without blanks
around it. -/
theorem turns_alter {written name : Text} {actions : List Piece} (htrim : written.trim = name)
    (hne : name ≠ []) (h : Sentence.Actions actions) (quote : CodePoint) (before after : Text)
    (rest : List Token) :
    let pieces := (Sentence.alter written actions).pieces quote
    let turn := statementTurn (before ++ (textOf pieces ++ after))
    turns turn (spell before.length pieces ++ rest) =
      (.alterTable name (textOf actions) :: (turns turn rest).1, (turns turn rest).2) := by
  intro pieces turn
  set head : List Piece :=
    [.word "ALTER", .gap ' ', .word "TABLE", .gap ' ', .name quote written, .gap ' '] with hhead
  have htext : before ++ (textOf pieces ++ after) =
      before ++ textOf head ++ (textOf actions ++ (textOf [.mark ';'] ++ after)) := by
    simp only [pieces, Sentence.pieces, textOf_append, List.append_assoc, hhead]
  have hturn := alterTurn_pieces quote htrim hne h (before ++ textOf head)
    (textOf [.mark ';'] ++ after) (before.length + (Text.ofString "ALTER").length)
    (before.length + (textOf head).length) List.length_append rest
  rw [← htext] at hturn
  have hnext := turns_next _ ((statementTurn_alter _ before.length
    (before.length + (Text.ofString "ALTER").length) _).trans hturn)
  have hspell : spell before.length pieces =
      spell before.length head ++ spell (before.length + (textOf head).length)
        (actions ++ [.mark ';']) :=
    spell_append _ _ _
  rw [hspell]
  exact hnext

/-- A statement takes its own tokens, and the rest is left to later turns. -/
theorem turns_sentence {s : Sentence} (h : s.WellFormed) {quote : CodePoint} (before after : Text)
    (rest : List Token) :
    let turn := statementTurn (before ++ (textOf (s.pieces quote) ++ after))
    turns turn (spell before.length (s.pieces quote) ++ rest) =
      (s.statement :: (turns turn rest).1, (turns turn rest).2) := by
  intro turn
  cases s with
  | create name body =>
      have hturn := createTurn_pieces quote body h.trim h.ne_nil
        (before.length + (Text.ofString "CREATE").length) rest
      exact turns_next _ ((statementTurn_create _ before.length _ _).trans hturn)
  | alter name actions =>
      exact turns_alter h.trim h.ne_nil (h.actions name actions rfl) quote before after rest

/-- What is asked of a table is the only statement of its own text. -/
theorem statements_alter {written name : Text} {actions : List Piece} (htrim : written.trim = name)
    (hne : name ≠ []) (h : Sentence.Actions actions) {quote : CodePoint}
    (hquote : quote = '"' ∨ quote = '`') :
    statements (textOf ((Sentence.alter written actions).pieces quote)) =
      [.alterTable name (textOf actions)] := by
  have hlegible : Legible none ((Sentence.alter written actions).pieces quote) :=
    h.legible_alter written hquote none
  have hstripped : stripComments (textOf ((Sentence.alter written actions).pieces quote)) =
      textOf ((Sentence.alter written actions).pieces quote) := by
    have hkept := hlegible.solid.toNeutral.kept []
    rw [List.append_nil] at hkept
    exact hkept.trans (List.append_nil _)
  have hturns := turns_alter htrim hne h quote [] [] []
  simp only [List.nil_append, List.append_nil, List.length_nil] at hturns
  rw [statements, hstripped, tokenize_pieces hlegible, hturns]
  rfl

/-! ## Rows -/

/-- A row of a script. -/
inductive Row where
  | blank
  | comment (t : Text)
  | sentence (s : Sentence)

namespace Row

/-- The statement of a row, if it has one. -/
def sentence? : Row → Option Sentence
  | .sentence s => some s
  | _ => none

/-- What a row holds besides comments. -/
def pieces (quote : CodePoint) : Row → List Piece
  | .sentence s => s.pieces quote
  | _ => []

/-- A row as a line of text. -/
def line (quote : CodePoint) : Row → Line
  | .comment t => .comment t
  | r => .code (textOf (r.pieces quote))

/-- Whether a row is one line with at most one well-formed statement. -/
def WellFormed : Row → Prop
  | .blank => True
  | .comment t => .char '\n' ∉ t
  | .sentence s => s.WellFormed

variable {r : Row} {quote : CodePoint}

theorem uncommented_line (quote : CodePoint) (r : Row) :
    (r.line quote).uncommented = textOf (r.pieces quote) := by
  cases r <;> rfl

theorem WellFormed.legible (h : r.WellFormed) (hquote : quote = '"' ∨ quote = '`')
    (next : Option CodePoint) : Legible next (r.pieces quote) := by
  cases r with
  | sentence s => exact Sentence.WellFormed.legible h hquote next
  | _ => exact .nil

theorem WellFormed.ends (h : r.WellFormed) (hquote : quote = '"' ∨ quote = '`') :
    (r.line quote).Ends := by
  cases r with
  | blank => exact Neutral.nil
  | comment t => exact h
  | sentence s => exact (Sentence.WellFormed.legible h hquote none).solid.toNeutral

end Row

/-- A row takes its own tokens. -/
theorem turns_row {r : Row} (h : r.WellFormed) (quote : CodePoint) (before after : Text)
    (rest : List Token) :
    let turn := statementTurn (before ++ (textOf (r.pieces quote) ++ after))
    (turns turn (spell before.length (r.pieces quote) ++ rest)).1 =
      (r.sentence?.map Sentence.statement).toList ++ (turns turn rest).1 := by
  intro turn
  cases r with
  | sentence s => exact congrArg Prod.fst (turns_sentence h before after rest)
  | _ => rfl

/-- Later rows, each on a line of its own. -/
def laterPieces (quote : CodePoint) (rows : List Row) : List Piece :=
  rows.flatMap fun r => .gap '\n' :: r.pieces quote

theorem laterPieces_cons (quote : CodePoint) (r : Row) (rows : List Row) :
    laterPieces quote (r :: rows) =
      (.gap '\n' :: r.pieces quote) ++ laterPieces quote rows :=
  rfl

theorem laterPieces_legible {quote : CodePoint} (hquote : quote = '"' ∨ quote = '`')
    {rows : List Row} (h : ∀ r ∈ rows, r.WellFormed) : Legible none (laterPieces quote rows) := by
  induction rows with
  | nil => exact .nil
  | cons r rows ih =>
      rw [laterPieces_cons]
      refine Legible.append (.cons rfl (fun _ hbody => by cases hbody) ?_)
        (ih fun s hs => h s (List.mem_cons_of_mem _ hs))
      exact (h r List.mem_cons_self).legible hquote _

theorem turns_later (quote : CodePoint) {rows : List Row} (h : ∀ r ∈ rows, r.WellFormed)
    (before : Text) :
    (turns (statementTurn (before ++ textOf (laterPieces quote rows)))
        (spell before.length (laterPieces quote rows))).1 =
      rows.filterMap fun r => r.sentence?.map Sentence.statement := by
  induction rows generalizing before with
  | nil => rfl
  | cons r rows ih =>
      -- the row begins after the end of the line before it, and the later ones after the row
      have hrow := turns_row (h r List.mem_cons_self) quote (before ++ [CodePoint.char '\n'])
        (textOf (laterPieces quote rows))
        (spell ((before ++ [CodePoint.char '\n']).length + (textOf (r.pieces quote)).length)
          (laterPieces quote rows))
      have hlater := ih (fun s hs => h s (List.mem_cons_of_mem _ hs))
        (before ++ [CodePoint.char '\n'] ++ textOf (r.pieces quote))
      have htext : before ++ textOf (laterPieces quote (r :: rows)) =
          before ++ [CodePoint.char '\n'] ++
            (textOf (r.pieces quote) ++ textOf (laterPieces quote rows)) := by
        simp [laterPieces_cons, Piece.text]
      have hspell : spell before.length (laterPieces quote (r :: rows)) =
          spell (before ++ [CodePoint.char '\n']).length (r.pieces quote) ++
            spell ((before ++ [CodePoint.char '\n']).length + (textOf (r.pieces quote)).length)
              (laterPieces quote rows) := by
        rw [laterPieces_cons, List.cons_append, spell, spell_append, List.length_append]
        rfl
      have hlength : (before ++ [CodePoint.char '\n'] ++ textOf (r.pieces quote)).length =
          (before ++ [CodePoint.char '\n']).length + (textOf (r.pieces quote)).length :=
        List.length_append
      rw [List.append_assoc (before ++ [CodePoint.char '\n']), hlength] at hlater
      rw [htext, hspell, List.filterMap_cons]
      simp only at hrow
      rw [hrow, hlater]
      cases r.sentence? <;> rfl

/-- The statements of a script are those of its rows, in order. -/
theorem statements_rows {quote : CodePoint} (hquote : quote = '"' ∨ quote = '`') {rows : List Row}
    (h : ∀ r ∈ rows, r.WellFormed) :
    statements (Text.join "\n" (rows.map fun r => (r.line quote).text)) =
      rows.filterMap fun r => r.sentence?.map Sentence.statement := by
  have hlines : ∀ l ∈ rows.map (Row.line quote), l.Ends := by
    intro l hl
    obtain ⟨r, hr, rfl⟩ := List.mem_map.1 hl
    exact (h r hr).ends hquote
  have hstripped : stripComments (Text.join "\n" (rows.map fun r => (r.line quote).text)) =
      Text.join "\n" (rows.map fun r => textOf (r.pieces quote)) := by
    have hcomments := stripComments_lines hlines
    simp only [List.map_map, Function.comp_def, Row.uncommented_line] at hcomments
    exact hcomments
  rw [statements, hstripped]
  -- the first row has no line break before it, unlike all later ones
  cases rows with
  | nil => rfl
  | cons r rows =>
      have hrows : ∀ s ∈ rows, s.WellFormed := fun s hs => h s (List.mem_cons_of_mem _ hs)
      have htext : Text.join "\n" ((r :: rows).map fun r => textOf (r.pieces quote)) =
          textOf (r.pieces quote ++ laterPieces quote rows) := by
        rw [List.map_cons, Text.join_cons, textOf_append, laterPieces, List.flatMap_map]
        simp [textOf, List.flatMap_assoc, Piece.text, Text.ofString, Text.ofChars]
      have hlegible : Legible none (r.pieces quote ++ laterPieces quote rows) :=
        ((h r List.mem_cons_self).legible hquote _).append (laterPieces_legible hquote hrows)
      have hrow := turns_row (h r List.mem_cons_self) quote []
        (textOf (laterPieces quote rows))
        (spell (textOf (r.pieces quote)).length (laterPieces quote rows))
      have hlater := turns_later quote hrows (textOf (r.pieces quote))
      have hspell : spell 0 (r.pieces quote ++ laterPieces quote rows) =
          spell 0 (r.pieces quote) ++
            spell (textOf (r.pieces quote)).length (laterPieces quote rows) := by
        rw [spell_append, Nat.zero_add]
      rw [htext, tokenize_pieces hlegible, textOf_append, hspell]
      simp only [List.nil_append, List.length_nil] at hrow
      rw [hrow, hlater, List.filterMap_cons]
      cases r.sentence? <;> rfl

end SchemaDesk.Sql
