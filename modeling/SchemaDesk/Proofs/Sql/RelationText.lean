import SchemaDesk.Proofs.Minting
import SchemaDesk.Proofs.Sql.TableText

/-!
# Relations as text

A relation is written as one statement that adds a foreign key to a table.  Its actions are read as
exactly one key, with the columns, the target, the referential actions and the constraint name that
were written (`addedKeys_actions`).

The name of the constraint is a bare word: it begins with `fk_`, so it is no keyword, and the rest
of it is hexadecimal digits.
-/

namespace SchemaDesk.Sql

/-! ## Referential actions -/

/-- The keywords of an action are read as the action. -/
theorem readAction_keywords (action : ReferentialAction) (position : Nat) (later : List Token) :
    readAction (spell position (wordsOf action.keywords) ++ later) = (some action, later) := by
  cases action <;> rfl

/-- The keyword of an event. -/
def Event.keyword : Event → Text
  | .delete => "DELETE"
  | .update => "UPDATE"

/-- What is written for an event and its action. -/
def eventWords (event : Event) (action : ReferentialAction) : List Text :=
  "ON" :: event.keyword :: action.keywords

/-- A turn takes the words of one event. -/
theorem turns_eventWords (event : Event) (action : ReferentialAction) (position : Nat)
    (later : List Token) :
    turns referenceTurn (spell position (wordsOf (eventWords event action)) ++ later) =
      ((event, action) :: (turns referenceTurn later).1, (turns referenceTurn later).2) := by
  obtain ⟨a, b, c, d, p, hspell⟩ : ∃ a b c d p,
      spell position (wordsOf (eventWords event action)) =
        ⟨.word "ON", a, b⟩ :: ⟨.word event.keyword, c, d⟩ :: spell p (wordsOf action.keywords) :=
    ⟨_, _, _, _, _, rfl⟩
  have hread := readAction_keywords action p later
  have hturn : referenceTurn ⟨.word "ON", a, b⟩
      ((⟨.word event.keyword, c, d⟩ :: spell p (wordsOf action.keywords)) ++ later) =
        .next (some (event, action)) later := by
    rw [List.cons_append, referenceTurn]
    cases event with
    | delete =>
        simp only [hread]
        rfl
    | update =>
        simp only [hread]
        rfl
  rw [hspell]
  exact turns_next _ hturn

theorem mem_eventWords {event : Event} {action : ReferentialAction} :
    ∀ w ∈ eventWords event action,
      (w ≠ [] ∧ w.all isWordChar = true) ∧ openers.contains w.upper = false := by
  cases event <;> cases action <;> decide

/-! ## Names of constraints -/

/-- A word that begins with the two letters of a foreign key. -/
def IsConstraintName (k : Text) : Prop :=
  ∃ rest : Text, k = .char 'f' :: .char 'k' :: rest ∧ rest.all isWordChar = true

theorem IsConstraintName.word {k : Text} (h : IsConstraintName k) :
    k ≠ [] ∧ k.all isWordChar = true := by
  obtain ⟨rest, rfl, hrest⟩ := h
  refine ⟨by simp, ?_⟩
  rw [List.all_cons, List.all_cons, hrest]
  decide

/-- The name of a constraint is not one of the keywords that could stand in its place. -/
theorem IsConstraintName.not_keyword {k : Text} (h : IsConstraintName k) {keywords : List Text}
    (hkeywords : ∀ w ∈ keywords, w.take 2 ≠ "FK") : keywords.contains k.upper = false := by
  obtain ⟨rest, rfl, -⟩ := h
  rw [← Bool.not_eq_true, List.contains_iff_mem]
  exact fun hmem => hkeywords _ hmem rfl

theorem mem_toDigits_sixteen {n : Nat} {c : Char} (h : c ∈ Nat.toDigits 16 n) :
    isWordChar (.char c) = true := by
  induction n using Nat.strongRecOn with
  | ind n ih =>
      have hdigit : ∀ d < 16, isWordChar (.char d.digitChar) = true := by decide
      rw [Nat.toDigits_eq_if (by omega)] at h
      split at h
      · next hlt =>
          rw [List.mem_singleton.1 h]
          exact hdigit n hlt
      · rcases List.mem_append.1 h with h | h
        · exact ih (n / 16) (by omega) h
        · rw [List.mem_singleton.1 h]
          exact hdigit (n % 16) (by omega)

/-- The constraint of a relation is named after the first digits of its identifier. -/
theorem constraintName_identifier (n : Nat) :
    ∃ k, constraintName (.str (identifier n)) = .ok k ∧ IsConstraintName k := by
  refine ⟨_, rfl, .char '_' :: (identifier n).take 8, rfl, ?_⟩
  have hlength : 8 ≤ (Value.hexadecimal 8 n).length := by
    rw [Value.hexadecimal, List.length_append, List.length_replicate]
    omega
  have htake : (identifier n).take 8 = Text.ofChars ((Value.hexadecimal 8 n).take 8) := by
    have hchars : 8 ≤ (Text.ofChars (Value.hexadecimal 8 n)).length := by
      rwa [Text.ofChars, List.length_map]
    rw [identifier, List.take_append_of_le_length hchars, Text.ofChars, Text.ofChars, List.map_take]
  rw [htake, List.all_cons, List.all_eq_true.2]
  · rfl
  · intro c hc
    obtain ⟨d, hd, rfl⟩ := List.mem_map.1 hc
    have hmem := List.mem_of_mem_take hd
    rw [Value.hexadecimal, List.mem_append] at hmem
    rcases hmem with hmem | hmem
    · rw [List.eq_of_mem_replicate hmem]
      decide
    · exact mem_toDigits_sixteen hmem

/-! ## Foreign keys -/

/-- What a key refers to, as it is written. -/
def referencePieces (quote : CodePoint) (target targetColumn : Text)
    (onDelete onUpdate : ReferentialAction) : List Piece :=
  [.word "REFERENCES", .gap ' ', .name quote target, .group (quoteName quote targetColumn)] ++
    (wordsOf (eventWords .delete onDelete) ++ wordsOf (eventWords .update onUpdate))

/-- A key of one column as it is written. -/
def foreignKeyPieces (quote : CodePoint) (k column target targetColumn : Text)
    (onDelete onUpdate : ReferentialAction) : List Piece :=
  .word "CONSTRAINT" :: .gap ' ' :: .word k :: ([.gap ' ', .word "FOREIGN", .gap ' ', .word "KEY",
    .gap ' ', .group (quoteName quote column), .gap ' '] ++
      referencePieces quote target targetColumn onDelete onUpdate)

/-- The actions of a statement that adds a key of one column. -/
def actionPieces (quote : CodePoint) (k column target targetColumn : Text)
    (onDelete onUpdate : ReferentialAction) : List Piece :=
  .word "ADD" :: .gap ' ' ::
    foreignKeyPieces quote k column target targetColumn onDelete onUpdate

/-- The key that is read from such a statement. -/
def foreignKeyOf (k column target targetColumn : Text) (onDelete onUpdate : ReferentialAction) :
    ForeignKey :=
  { columns := [column], targetTable := target, targetColumns := [targetColumn], onDelete,
    onUpdate, name := some k }

section ForeignKey

variable {quote : CodePoint} {k column written target targetColumn : Text}
variable {onDelete onUpdate : ReferentialAction}

theorem foreignKeyPieces_legible (hquote : quote = '"' ∨ quote = '`') (hk : IsConstraintName k)
    {next : Option CodePoint} (hnext : next.any isWordChar = false) :
    Legible next (foreignKeyPieces quote k column target targetColumn onDelete onUpdate) := by
  obtain ⟨hne, hall⟩ := hk.word
  have hwords : Legible next
      (wordsOf (eventWords .delete onDelete) ++ wordsOf (eventWords .update onUpdate)) :=
    (wordsOf_legible (fun w hw => (mem_eventWords w hw).1) rfl).append
      (wordsOf_legible (fun w hw => (mem_eventWords w hw).1) hnext)
  have hreference : Legible next
      (referencePieces quote target targetColumn onDelete onUpdate) := by
    refine Legible.append ⟨?_, fun body hbody => ?_⟩ hwords
    · rcases hquote with rfl | rfl <;> rfl
    · have hname : body = quoteName quote targetColumn := by simpa using hbody
      rw [hname]
      exact (isItem_quoteName hquote targetColumn).solid.toNeutral
  have hkey : Legible next ([.gap ' ', .word "FOREIGN", .gap ' ', .word "KEY", .gap ' ',
      .group (quoteName quote column), .gap ' '] ++
        referencePieces quote target targetColumn onDelete onUpdate) := by
    refine Legible.append ⟨rfl, fun body hbody => ?_⟩ hreference
    have hname : body = quoteName quote column := by simpa using hbody
    rw [hname]
    exact (isItem_quoteName hquote column).solid.toNeutral
  exact .cons rfl (fun _ hword => by cases hword) (.cons rfl (fun _ hgap => by cases hgap)
    (.cons (reads_word hne hall rfl) (fun _ hword => by cases hword) hkey))

/-- A single name in parentheses. -/
theorem namesIn_single (hquote : quote = '"' ∨ quote = '`') (n : Text) :
    namesIn (some (quoteName quote n)) = [n] := by
  have hnames := namesIn_quoted hquote [n]
  rwa [List.map_singleton, Text.join_cons, List.flatMap_nil, List.append_nil] at hnames

/-- The reference of a written key is read to its end; the name of its target may have blanks around
it. -/
theorem readReference_pieces (hquote : quote = '"' ∨ quote = '`') (htrim : written.trim = target)
    (hne : target ≠ []) (position : Nat) :
    readReference [column] (some k)
        (spell position (referencePieces quote written targetColumn onDelete onUpdate)) =
      (some (foreignKeyOf k column target targetColumn onDelete onUpdate), []) := by
  rw [referencePieces, spell_append]
  generalize position + _ = p
  obtain ⟨a, b, c, d, e, f, hspell⟩ : ∃ a b c d e f,
      spell position [.word "REFERENCES", .gap ' ', .name quote written,
        .group (quoteName quote targetColumn)] =
          [⟨.word "REFERENCES", a, b⟩, ⟨.quoted written, c, d⟩,
            ⟨.group (quoteName quote targetColumn), e, f⟩] :=
    ⟨_, _, _, _, _, _, rfl⟩
  have hevents : turns referenceTurn
      (spell p (wordsOf (eventWords .delete onDelete) ++ wordsOf (eventWords .update onUpdate))) =
        ([(.delete, onDelete), (.update, onUpdate)], []) := by
    have hupdate := turns_eventWords .update onUpdate
      (p + (textOf (wordsOf (eventWords .delete onDelete))).length) []
    rw [List.append_nil] at hupdate
    rw [spell_append, turns_eventWords, hupdate]
    rfl
  generalize spell p (wordsOf (eventWords .delete onDelete) ++
    wordsOf (eventWords .update onUpdate)) = events at *
  have hname := readName_alone ⟨.quoted written, c, d⟩
    (⟨.group (quoteName quote targetColumn), e, f⟩ :: events) rfl htrim hne rfl
  have hafter : after? ["REFERENCES"] ([⟨.word "REFERENCES", a, b⟩, ⟨.quoted written, c, d⟩,
      ⟨.group (quoteName quote targetColumn), e, f⟩] ++ events) =
        some (⟨.quoted written, c, d⟩ :: ⟨.group (quoteName quote targetColumn), e, f⟩ :: events) :=
    rfl
  rw [hspell, readReference, hafter]
  simp only [hname, readGroup, hevents, namesIn_single hquote]
  rfl

/-- A foreign key of one column is read from the column in parentheses and the reference. -/
theorem classifyKey_foreignKey (hquote : quote = '"' ∨ quote = '`') {text : Text}
    {name : Option Text} {key : ForeignKey} {left later : List Token} {a b c d e f i j : Nat}
    (hread : readReference [column] name (⟨.word "REFERENCES", i, j⟩ :: later) =
      (some key, left)) :
    classifyKey text name (⟨.word "FOREIGN", a, b⟩ :: ⟨.word "KEY", c, d⟩ ::
        ⟨.group (quoteName quote column), e, f⟩ :: ⟨.word "REFERENCES", i, j⟩ :: later) =
      some (.foreignKey key) := by
  set rest : List Token :=
    ⟨.group (quoteName quote column), e, f⟩ :: ⟨.word "REFERENCES", i, j⟩ :: later
  have hprimary : afterPhrase? ["PRIMARY", "KEY"]
      (⟨.word "FOREIGN", a, b⟩ :: ⟨.word "KEY", c, d⟩ :: rest) = none := rfl
  have hforeign : afterPhrase? ["FOREIGN", "KEY"]
      (⟨.word "FOREIGN", a, b⟩ :: ⟨.word "KEY", c, d⟩ :: rest) = some rest := rfl
  have hindex : skipIndexName rest = rest := rfl
  have hgroup : readGroup rest =
      (some (quoteName quote column), ⟨.word "REFERENCES", i, j⟩ :: later) := rfl
  rw [classifyKey, hprimary, hforeign]
  simp only [hindex, ite_self, hgroup, namesIn_single hquote, hread]
  rfl

/-- A key that is named as a constraint is read without the name. -/
theorem classify_named {text : Text} (hk : IsConstraintName k) {a b c : Nat} {rest : List Token}
    {clause : Clause}
    (htokens : tokenize text = ⟨.word "CONSTRAINT", 0, a⟩ :: ⟨.word k, b, c⟩ :: rest)
    (hpoint : rest.head?.any (Token.isMark '.') = false)
    (hclause : classifyKey text (some k) rest = some clause) : classify text = clause := by
  have hafter : after? ["CONSTRAINT"] (tokenize text) = some (⟨.word k, b, c⟩ :: rest) := by
    rw [htokens]
    rfl
  have hconstraint : nextIs ["PRIMARY", "FOREIGN", "UNIQUE", "CHECK"]
      (⟨.word k, b, c⟩ :: rest) = false :=
    hk.not_keyword (by decide)
  have hname := readName_alone ⟨.word k, b, c⟩ rest rfl
    (trimmed_word hk.word.1 hk.word.2).trim hk.word.1 hpoint
  rw [classify]
  simp only [hafter, hconstraint, Bool.false_eq_true, if_false, hname, hclause, Option.getD_some]

/-- A written key is read as the key it was written from. -/
theorem classify_foreignKey (hquote : quote = '"' ∨ quote = '`') (hk : IsConstraintName k)
    (htrim : written.trim = target) (hne : target ≠ []) :
    classify (textOf (foreignKeyPieces quote k column written targetColumn onDelete onUpdate)) =
      .foreignKey (foreignKeyOf k column target targetColumn onDelete onUpdate) := by
  have hlegible : Legible none
      (foreignKeyPieces quote k column written targetColumn onDelete onUpdate) :=
    foreignKeyPieces_legible hquote hk rfl
  have htokens := tokenize_pieces hlegible
  generalize textOf (foreignKeyPieces quote k column written targetColumn onDelete onUpdate) =
    text at *
  obtain ⟨a, b, c, d, e, f, i, j, p, hspell⟩ : ∃ a b c d e f i j p,
      tokenize text = ⟨.word "CONSTRAINT", 0, a⟩ :: ⟨.word k, b, c⟩ :: ⟨.word "FOREIGN", d, e⟩ ::
        ⟨.word "KEY", f, i⟩ :: ⟨.group (quoteName quote column), j, p⟩ ::
          spell (p + 1) (referencePieces quote written targetColumn onDelete onUpdate) :=
    ⟨_, _, _, _, _, _, _, _, _, htokens⟩
  have hread : readReference [column] (some k)
      (spell (p + 1) (referencePieces quote written targetColumn onDelete onUpdate)) =
        (some (foreignKeyOf k column target targetColumn onDelete onUpdate), []) :=
    readReference_pieces hquote htrim hne (p + 1)
  obtain ⟨q, r, later, hlater⟩ : ∃ q r later,
      spell (p + 1) (referencePieces quote written targetColumn onDelete onUpdate) =
        ⟨.word "REFERENCES", q, r⟩ :: later :=
    ⟨_, _, _, rfl⟩
  rw [hlater] at hspell hread
  exact classify_named hk hspell rfl (classifyKey_foreignKey hquote hread)

/-- The last word of the actions of a statement is the last keyword of the second action. -/
theorem actionPieces_last : ∃ rest w,
    actionPieces quote k column target targetColumn onDelete onUpdate = rest ++ [.word w] := by
  have hlast : (actionPieces quote k column target targetColumn onDelete onUpdate).getLast? =
      (onUpdate.keywords.getLast?.map Piece.word).or (some (.word Event.update.keyword)) := by
    have hsplit : actionPieces quote k column target targetColumn onDelete onUpdate =
        ([.word "ADD", .gap ' ', .word "CONSTRAINT", .gap ' ', .word k, .gap ' ', .word "FOREIGN",
          .gap ' ', .word "KEY", .gap ' ', .group (quoteName quote column), .gap ' ',
          .word "REFERENCES", .gap ' ', .name quote target,
          .group (quoteName quote targetColumn)] ++ wordsOf (eventWords .delete onDelete)) ++
            wordsOf (eventWords .update onUpdate) := by
      simp [actionPieces, foreignKeyPieces, referencePieces]
    rw [hsplit, List.getLast?_append, wordsOf_getLast?]
    cases onUpdate <;> rfl
  obtain ⟨w, hw⟩ : ∃ w, (actionPieces quote k column target targetColumn onDelete
      onUpdate).getLast? = some (.word w) := by
    rw [hlast]
    cases onUpdate <;> exact ⟨_, rfl⟩
  obtain ⟨rest, hrest⟩ := List.getLast?_eq_some_iff.1 hw
  exact ⟨rest, w, hrest⟩

theorem actionPieces_legible (hquote : quote = '"' ∨ quote = '`') (hk : IsConstraintName k)
    {next : Option CodePoint} (hnext : next.any isWordChar = false) :
    Legible next (actionPieces quote k column target targetColumn onDelete onUpdate) :=
  .cons rfl (fun _ hword => by cases hword) (.cons rfl (fun _ hgap => by cases hgap)
    (foreignKeyPieces_legible hquote hk hnext))

/-- Nothing in the actions of a statement ends the statement. -/
theorem actionPieces_staysInside (hk : IsConstraintName k) :
    (actionPieces quote k column target targetColumn onDelete onUpdate).all Piece.staysInside =
      true := by
  have hwords : ∀ {event : Event} {action : ReferentialAction},
      (wordsOf (eventWords event action)).all Piece.staysInside = true := by
    intro event action
    cases event <;> cases action <;> decide
  have hword : (Piece.word k).staysInside = true := by
    rw [Piece.staysInside, hk.not_keyword (by decide)]
    rfl
  simp only [actionPieces, foreignKeyPieces, referencePieces, List.all_cons, List.all_append,
    List.all_nil, hword, hwords, Bool.and_true, Bool.true_and]
  rfl

/-- The actions that add a key can be cut out of a text. -/
theorem actionPieces_actions (hquote : quote = '"' ∨ quote = '`') (hk : IsConstraintName k) :
    Sentence.Actions (actionPieces quote k column target targetColumn onDelete onUpdate) :=
  ⟨⟨_, _, rfl⟩, actionPieces_last, actionPieces_legible hquote hk (by decide),
    actionPieces_staysInside hk⟩

/-- A statement that adds a key is well formed. -/
theorem alter_wellFormed (hquote : quote = '"' ∨ quote = '`') (hk : IsConstraintName k)
    {source : Text} (htrim : source.trim = source) (hne : source ≠ []) :
    (Sentence.alter source
      (actionPieces quote k column target targetColumn onDelete onUpdate)).WellFormed := by
  refine ⟨htrim, hne, fun _ _ hcreate => ?_, fun _ _ halter => ?_⟩
  · cases hcreate
  · cases halter
    exact actionPieces_actions hquote hk

/-- The actions of a statement add exactly the key they were written for. -/
theorem addedKeys_actions (hquote : quote = '"' ∨ quote = '`') (hk : IsConstraintName k)
    (htrim : written.trim = target) (hne : target ≠ []) :
    addedKeys (textOf (actionPieces quote k column written targetColumn onDelete onUpdate)) =
      [foreignKeyOf k column target targetColumn onDelete onUpdate] := by
  have hlegible : Legible none
      (actionPieces quote k column written targetColumn onDelete onUpdate) :=
    actionPieces_legible hquote hk rfl
  obtain ⟨rest, w, hlast⟩ : ∃ rest w,
      actionPieces quote k column written targetColumn onDelete onUpdate = rest ++ [.word w] :=
    actionPieces_last
  have hitem : IsItem
      (textOf (actionPieces quote k column written targetColumn onDelete onUpdate)) :=
    hlegible.isItem (q := .word w) rfl
      (by rw [actionPieces] at hlast; rw [hlast, List.getLast?_concat]) rfl
  have hsplit := splitItems_join [] rfl (List.forall_mem_singleton.2 hitem)
  rw [Text.join_cons, List.flatMap_nil, List.append_nil] at hsplit
  obtain ⟨a, b, c, later, htokens⟩ : ∃ a b c later,
      tokenize (textOf (actionPieces quote k column written targetColumn onDelete onUpdate)) =
        ⟨.word "ADD", a, b⟩ :: ⟨.word "CONSTRAINT", 4, c⟩ :: later :=
    ⟨_, _, _, _, tokenize_pieces hlegible⟩
  have hdrop : (textOf (actionPieces quote k column written targetColumn onDelete onUpdate)).drop 4 =
      textOf (foreignKeyPieces quote k column written targetColumn onDelete onUpdate) := rfl
  have hadd : Token.isKeyword ["ADD"] ⟨.word "ADD", a, b⟩ = true := by
    simp [Token.isKeyword]
    decide
  rw [addedKeys, hsplit, List.filterMap_cons, htokens]
  simp only [hadd, if_true, hdrop, classify_foreignKey hquote hk htrim hne]
  rfl

end ForeignKey

/-! ## Writing a relation -/

/-- The text of a statement that adds a relation. -/
theorem addForeignKey_eq {r : Relation} {source target : Table} {sc tc : Column}
    (database : Value) {s c t d k : Text} {onDelete onUpdate : ReferentialAction}
    (hs : source.name = .str s) (hc : sc.name = .str c) (ht : target.name = .str t)
    (hd : tc.name = .str d) (hk : constraintName r.id = .ok k)
    (hdelete : r.onDelete = .str onDelete.name) (hupdate : r.onUpdate = .str onUpdate.name) :
    addForeignKey r source sc target tc database = .ok (textOf ((Sentence.alter s
      (actionPieces (nameQuote database) k c t d onDelete onUpdate)).pieces
        (nameQuote database))) := by
  have hwords : ∀ (event : Event) (action : ReferentialAction),
      textOf (wordsOf (eventWords event action)) =
        Text.ofString " ON " ++ (event.keyword ++ .char ' ' :: action.name) := by
    intro event action
    cases event <;> cases action <;> rfl
  rw [addForeignKey, hs, hc, ht, hd, hk, hdelete, hupdate]
  show Except.ok _ = _
  simp [Sentence.pieces, actionPieces, foreignKeyPieces, referencePieces, Piece.text,
    parenthesized, hwords, Event.keyword, Text.ofString, Text.ofChars]

end SchemaDesk.Sql
