import SchemaDesk.Proofs.Sql.ColumnText
import SchemaDesk.Proofs.Sql.Names
import SchemaDesk.Proofs.Sql.Numeric
import SchemaDesk.Proofs.Sql.Resolution
import SchemaDesk.Proofs.Sql.Sentences
import SchemaDesk.Proofs.Sql.Unreadable

/-!
# Numbers as default values

The default of a column is cut out of the text from its first token to the last that is glued to it:
words, groups and points are, other marks are not.  Of a number this is `NumericLiteral.read`, which
lacks the exponent from its sign on (`readDefault_numeric`).  What is left of the number is passed
over, so that the modifiers after it are read as they stand (`parse_numeric_default`).
-/

namespace SchemaDesk.Sql

open Minting
open Flags (hinted)

/-! ## Glued tokens -/

/-- Whether a piece continues a literal. -/
def Piece.isGlued : Piece → Bool
  | .word _ => true
  | .mark c => c = '.'
  | _ => false

theorem literalRest_pieces {ps : List Piece} (h : ps.all Piece.isGlued = true) (stop : Nat)
    (later : List Token) :
    literalRest stop (spell stop ps ++ later) =
      literalRest (stop + (textOf ps).length) later := by
  induction ps generalizing stop with
  | nil => rfl
  | cons p ps ih =>
      rw [List.all_cons, Bool.and_eq_true] at h
      have hrest := ih h.2 (stop + p.text.length)
      rw [Nat.add_assoc, ← List.length_append, ← textOf_cons] at hrest
      rw [← hrest]
      cases p with
      | word w => exact if_pos (by simp)
      | mark c =>
          have hpoint : c = CodePoint.char '.' := of_decide_eq_true h.1
          rw [hpoint]
          exact if_pos (by simp)
      | gap c | name quote n | literal v | group body => cases h.1

/-- A literal ends before a gap, and before a mark that is no point. -/
theorem literalRest_stop {stop : Nat} {tokens : List Token}
    (h : ∀ t ∈ tokens.head?, t.start ≠ stop ∨ ∃ c, t.lexeme = .mark c ∧ c ≠ CodePoint.char '.') :
    literalRest stop tokens = (stop, tokens) := by
  cases tokens with
  | nil => rfl
  | cons t rest =>
      rcases h t rfl with hgap | ⟨c, hlexeme, hc⟩
      · rw [literalRest]
        exact if_neg (by simp [hgap])
      · rw [literalRest, hlexeme]
        exact if_neg (by simp [hc])

theorem mem_spell {ps : List Piece} {position : Nat} {t : Token} (h : t ∈ spell position ps) :
    ∃ p ∈ ps, p.lexeme? = some t.lexeme := by
  induction ps generalizing position with
  | nil => cases h
  | cons p ps ih =>
      rw [spell, List.mem_append, Option.mem_toList, Piece.token?, Option.map_eq_some_iff] at h
      rcases h with ⟨lexeme, hlexeme, rfl⟩ | h
      · exact ⟨p, List.mem_cons_self, hlexeme⟩
      · obtain ⟨q, hq, hlexeme⟩ := ih h
        exact ⟨q, List.mem_cons_of_mem _ hq, hlexeme⟩

/-! ## The pieces of a number -/

namespace NumericLiteral

/-- Whether a piece of a number can begin with a character, after conversion to upper case. -/
def begins (c : CodePoint) : Bool :=
  c.is Char.isDigit || c = 'E' || c = '+' || c = '-' || c = '.'

theorem upper_cons {c : CodePoint} (h : c.is Char.isDigit = true) (t : Text) :
    Text.upper (c :: t) = c :: t.upper := by
  cases c with
  | surrogate i => cases h
  | char c =>
      have hsame : Text.upperChar c = [c] :=
        isDigit_cases (motive := fun c => Text.upperChar c = [c]) (by decide) h
      rw [Text.upper, List.flatMap_cons, Text.CaseMap.onCodePoint, hsame]
      rfl

variable {n : NumericLiteral} {p : Piece} {t : Token} {position : Nat}

/-- The marks that a number is written with. -/
def marks : Text := "+-."

theorem symbol_mem_marks (sign : Sign) : sign.symbol ∈ marks := by
  cases sign <;> decide

/-- A word that begins with a digit or with the marker of an exponent, or a mark of numbers. -/
inductive IsPart : Piece → Prop
  | digits (ds : Digits) (t : Text) : IsPart (.word (ds.text ++ t))
  | exponent (e : Exponent) (t : Text) : IsPart (.word (e.marker :: t))
  | mark {c : CodePoint} (h : c ∈ marks) : IsPart (.mark c)

theorem IsPart.whole (ds : Digits) : IsPart (.word ds.text) := by
  have hpart := IsPart.digits ds []
  rwa [List.append_nil] at hpart

theorem isPart_lead (n : NumericLiteral) : ∀ p ∈ n.lead, IsPart p := by
  rw [lead]
  cases n.sign with
  | none => exact fun _ hp => absurd hp List.not_mem_nil
  | some sign => exact List.forall_mem_singleton.2 (.mark (symbol_mem_marks sign))

theorem isPart_body (n : NumericLiteral) : ∀ p ∈ n.body, IsPart p := by
  have hpoint : IsPart (.mark '.') := .mark (by decide)
  have hsuffix : n.suffix ≠ [] → IsPart (.word n.suffix) := by
    rw [suffix]
    cases n.exponent with
    | none => exact fun hne => absurd rfl hne
    | some e => exact fun _ => .exponent e _
  rw [body]
  cases n.magnitude with
  | whole ds => exact List.forall_mem_singleton.2 (.digits ds _)
  | pointed ds decimals =>
      cases decimals with
      | none =>
          refine List.forall_mem_cons.2 ⟨.whole ds, List.forall_mem_cons.2 ⟨hpoint, ?_⟩⟩
          show ∀ p ∈ (if n.suffix = [] then [] else [Piece.word n.suffix]), IsPart p
          split
          · exact fun _ hp => absurd hp List.not_mem_nil
          · next hne => exact List.forall_mem_singleton.2 (hsuffix hne)
      | some decimals =>
          exact List.forall_mem_cons.2 ⟨.whole ds, List.forall_mem_cons.2 ⟨hpoint,
            List.forall_mem_singleton.2 (.digits decimals _)⟩⟩
  | fraction ds =>
      exact List.forall_mem_cons.2 ⟨hpoint, List.forall_mem_singleton.2 (.digits ds _)⟩

theorem isPart_rest (n : NumericLiteral) : ∀ p ∈ n.rest, IsPart p := by
  rcases n.rest_cases with hrest | ⟨sign, digits, hrest⟩
  · rw [hrest]
    exact fun _ hp => absurd hp List.not_mem_nil
  · rw [hrest]
    exact List.forall_mem_cons.2
      ⟨.mark (symbol_mem_marks sign), List.forall_mem_singleton.2 (.whole digits)⟩

theorem isPart_pieces (n : NumericLiteral) : ∀ p ∈ n.pieces, IsPart p := by
  intro p hp
  rw [pieces, List.mem_append, List.mem_append] at hp
  rcases hp with hp | hp | hp
  · exact n.isPart_lead p hp
  · exact n.isPart_body p hp
  · exact n.isPart_rest p hp

/-- A part of a number begins as no keyword does. -/
theorem IsPart.upper_begins {p : Piece} (h : IsPart p) :
    ∃ c t, p.text.upper = c :: t ∧ begins c = true := by
  cases h with
  | digits ds t =>
      obtain ⟨c, u, htext, hc⟩ := ds.exists_cons
      refine ⟨c, Text.upper (u ++ t), ?_, by rw [begins, hc]; rfl⟩
      rw [Piece.text, htext, List.cons_append, upper_cons hc]
  | exponent e t =>
      refine ⟨'E', t.upper, ?_, by decide⟩
      show Text.CaseMap.onCodePoint Text.upperChar e.marker ++ t.upper = _
      rw [Exponent.marker]
      split <;> rfl
  | mark hc =>
      have hmarks : ∀ c ∈ marks, Text.upper [c] = [c] ∧ begins c = true := by decide
      exact ⟨_, [], hmarks _ hc⟩

theorem body_isGlued (n : NumericLiteral) : n.body.all Piece.isGlued = true := by
  rw [body]
  cases n.magnitude with
  | whole _ | fraction _ => rfl
  | pointed _ decimals =>
      cases decimals with
      | some _ => rfl
      | none =>
          show (if n.suffix = [] then [] else [Piece.word n.suffix]).all Piece.isGlued = true
          split <;> rfl

/-- A number begins with a part, which words and points follow up to the sign of the exponent. -/
theorem lead_body_cons (n : NumericLiteral) :
    ∃ p ps, n.lead ++ n.body = p :: ps ∧ IsPart p ∧ ps.all Piece.isGlued = true := by
  have hbody := n.body_isGlued
  have hpart : ∀ p ∈ n.lead ++ n.body, IsPart p :=
    List.forall_mem_append.2 ⟨n.isPart_lead, n.isPart_body⟩
  rw [lead] at hpart ⊢
  generalize n.sign = sign at hpart ⊢
  cases sign with
  | some sign => exact ⟨_, _, rfl, hpart _ List.mem_cons_self, hbody⟩
  | none =>
      cases hsplit : n.body with
      | nil =>
          obtain ⟨c, t, htext, -⟩ := n.body_cons
          rw [hsplit] at htext
          cases htext
      | cons p ps =>
          rw [hsplit] at hpart hbody
          rw [List.all_cons, Bool.and_eq_true] at hbody
          exact ⟨p, ps, rfl, hpart p List.mem_cons_self, hbody.2⟩

/-- What is read of a number is no keyword. -/
theorem read_upper_ne (n : NumericLiteral) {k : Text} (hk : k.head?.any begins = false) :
    n.read.upper ≠ k := by
  obtain ⟨p, ps, hsplit, hp, -⟩ := n.lead_body_cons
  obtain ⟨c, t, hupper, hc⟩ := hp.upper_begins
  rintro rfl
  rw [n.read_eq, hsplit, textOf_cons, Text.upper, List.flatMap_append, ← Text.upper, hupper] at hk
  exact absurd (hk.symm.trans hc) Bool.false_ne_true

variable {t : Token} {position : Nat}

/-- A token of a number is among the modifiers what no keyword is. -/
theorem modifier_ne {ps : List Piece} (hps : ∀ p ∈ ps, IsPart p) (ht : t ∈ spell position ps)
    {k : Text} (hk : k.head?.any begins = false) : modifier t ≠ k := by
  obtain ⟨p, hp, hlexeme⟩ := mem_spell ht
  have hpart := hps p hp
  obtain ⟨c, u, hupper, hc⟩ := hpart.upper_begins
  have hmodifier : modifier t = p.text.upper := by
    rw [modifier]
    cases hpart <;> rw [← Option.some.inj hlexeme] <;> rfl
  rintro rfl
  rw [hmodifier, hupper] at hk
  exact absurd (hk.symm.trans hc) Bool.false_ne_true

theorem isKeyword_part {ps : List Piece} (hps : ∀ p ∈ ps, IsPart p) (ht : t ∈ spell position ps)
    {keywords : List Text} (hk : ∀ k ∈ keywords, k.head?.any begins = false) :
    t.isKeyword keywords = false := by
  rw [Token.isKeyword]
  split
  · next w hlexeme =>
      rw [List.contains_eq_mem, decide_eq_false_iff_not]
      intro hw
      have hne := modifier_ne hps ht (hk _ hw)
      rw [modifier, hlexeme] at hne
      exact hne rfl
  · rfl

/-- Of a number the value is what stands before the sign of its exponent, unless something is
glued to it. -/
theorem readDefault_numeric (n : NumericLiteral) (before after : Text) {later : List Token}
    (hlater : ∀ t ∈ later.head?, t.start ≠ before.length + n.text.length) :
    readDefault (before ++ (n.text ++ after)) (spell before.length n.pieces ++ later) =
      (some n.read, spell (before.length + n.read.length) n.rest ++ later) := by
  obtain ⟨p, ps, hsplit, hp, hps⟩ := n.lead_body_cons
  have hread : n.read = textOf (p :: ps) := by rw [n.read_eq, hsplit]
  have hpieces : n.pieces = p :: ps ++ n.rest := by rw [pieces, ← List.append_assoc, hsplit]
  have hstop : ∀ t ∈ (spell (before.length + n.read.length) n.rest ++ later).head?,
      t.start ≠ before.length + n.read.length ∨
        ∃ c, t.lexeme = .mark c ∧ c ≠ CodePoint.char '.' := by
    rw [n.text_eq_read] at hlater
    rcases n.rest_cases with hrest | ⟨sign, digits, hrest⟩
    · rw [hrest, textOf_nil, List.append_nil] at hlater
      rw [hrest]
      exact fun t ht => .inl (hlater t ht)
    · rw [hrest]
      rintro t ⟨⟩
      exact .inr ⟨sign.symbol, rfl, by cases sign <;> decide⟩
  have hrest : literalRest (before.length + p.text.length)
      (spell (before.length + p.text.length) ps ++
        (spell (before.length + n.read.length) n.rest ++ later)) =
      (before.length + n.read.length,
        spell (before.length + n.read.length) n.rest ++ later) := by
    rw [literalRest_pieces hps, Nat.add_assoc, ← List.length_append, ← textOf_cons, ← hread]
    exact literalRest_stop hstop
  have hslice : slice (before ++ (n.text ++ after)) before.length
      (before.length + n.read.length) = n.read := by
    rw [n.text_eq_read, List.append_assoc]
    exact slice_middle before n.read (textOf n.rest ++ after)
  have hnull : n.read.upper ≠ "NULL" := n.read_upper_ne (by decide)
  rw [hpieces, spell_append, ← hread, List.append_assoc, spell, List.append_assoc]
  cases hp <;>
    simp only [Piece.token?, Piece.lexeme?, Option.map_some, Option.toList_some,
      List.singleton_append, readDefault, hrest, hslice, if_neg hnull]

end NumericLiteral

/-! ## Modifiers -/

/-- What may be said of a column after its default value. -/
inductive Modifier where
  | notNull
  | unique
  | primaryKey
  deriving DecidableEq

namespace Modifier

/-- A modifier as it is written, with a space before it. -/
def text : Modifier → Text
  | .notNull => " NOT NULL"
  | .unique => " UNIQUE"
  | .primaryKey => " PRIMARY KEY"

/-- The words of a modifier. -/
def words : Modifier → List Text
  | .notNull => ["NOT", "NULL"]
  | .unique => ["UNIQUE"]
  | .primaryKey => ["PRIMARY", "KEY"]

theorem flatMap_text (ms : List Modifier) :
    ms.flatMap text = textOf (wordsOf (ms.flatMap words)) := by
  rw [textOf, wordsOf, List.flatMap_assoc, List.flatMap_assoc]
  refine List.flatMap_congr fun m _ => ?_
  cases m <;> rfl

theorem mem_modifierWords (ms : List Modifier) : ∀ w ∈ ms.flatMap words, w ∈ modifierWords := by
  intro w hw
  obtain ⟨m, -, hw⟩ := List.mem_flatMap.1 hw
  have hall : ∀ w ∈ m.words, w ∈ modifierWords := by cases m <;> decide
  exact hall w hw

/-- The words of some modifiers contain those of another one only if it is among them. -/
theorem hasPhrase_words (m : Modifier) (ms : List Modifier) :
    hasPhrase m.words (ms.flatMap words) = ms.contains m := by
  induction ms with
  | nil => cases m <;> rfl
  | cons m' ms ih =>
      rw [List.flatMap_cons, List.contains_cons, ← ih]
      cases m <;> cases m' <;> rfl

end Modifier

/-- Words before a phrase do not matter if the phrase begins with none of them. -/
theorem hasPhrase_append {k : Text} {phrase first : List Text} (h : k ∉ first)
    (second : List Text) :
    hasPhrase (k :: phrase) (first ++ second) = hasPhrase (k :: phrase) second := by
  induction first with
  | nil => rfl
  | cons w first ih =>
      have hw : (k == w) = false := beq_false_of_ne fun hsame => h (hsame ▸ List.mem_cons_self)
      have hfirst : k ∉ first := fun hmem => h (List.mem_cons_of_mem _ hmem)
      rw [List.cons_append, hasPhrase, List.isPrefixOf_cons_cons, hw, Bool.false_and, Bool.false_or,
        ih hfirst]

/-! ## The column -/

/-- A column with a number as its default value, and some modifiers. -/
def numericItem (n : NumericLiteral) (ms : List Modifier) : Text :=
  "c FLOAT DEFAULT " ++ (n.text ++ ms.flatMap Modifier.text)

/-- What such a column is in a table with the given clauses. -/
def numericColumn (n : NumericLiteral) (ms : List Modifier) (clauses : List Clause) (id : Value) :
    Column :=
  { id := id, name := .str "c", type := DataType.float.name
    isPrimaryKey := ms.contains .primaryKey ||
      (clauses.filterMap Clause.primaryKey?).any (·.any ((Value.str "c").isNamed ·))
    isNullable := !ms.contains .notNull
    isUnique := ms.contains .unique ||
      (clauses.filterMap Clause.uniqueColumn?).any ((Value.str "c").isNamed ·)
    defaultValue := .str n.read }

/-- A table with such a column alone. -/
def numericTable (n : NumericLiteral) (ms : List Modifier) : Text :=
  "CREATE TABLE \"t\" (" ++ numericItem n ms ++ ");"

section Column

variable (n : NumericLiteral) (ms : List Modifier)

theorem isItem_numericItem : IsItem (numericItem n ms) := by
  have hwords := modifierWords_legible (Modifier.mem_modifierWords ms)
  have hsolid : Solid (numericItem n ms) := by
    rw [numericItem, Modifier.flatMap_text]
    exact (Solid.of_all (by decide)).append (n.solid_text.append hwords.solid)
  refine ⟨hsolid, ⟨'c', rfl, by decide⟩, ?_⟩
  rw [numericItem, List.getLast?_append, List.getLast?_append]
  rcases ms.eq_nil_or_concat with rfl | ⟨init, m, rfl⟩
  · obtain ⟨c, hc, hblank⟩ := n.text_getLast?
    exact ⟨c, by rw [hc]; rfl, hblank⟩
  · rw [List.concat_eq_append, List.flatMap_append, List.getLast?_append]
    cases m <;> exact ⟨_, rfl, by decide⟩

/-- The tokens of the modifiers, which stand after the number. -/
def laterTokens : List Token :=
  spell (16 + n.text.length) (wordsOf (ms.flatMap Modifier.words))

theorem tokenize_numericItem :
    tokenize (numericItem n ms) =
      [⟨.word "c", 0, 1⟩, ⟨.word "FLOAT", 2, 7⟩, ⟨.word "DEFAULT", 8, 15⟩] ++
        (spell 16 n.pieces ++ laterTokens n ms) := by
  have hhead : ∀ next, Legible next
      [.word "c", .gap ' ', .word "FLOAT", .gap ' ', .word "DEFAULT", .gap ' '] :=
    fun _ => ⟨rfl, by simp⟩
  have hnext : (ms.flatMap Modifier.text).head?.any isWordChar = false := by
    rw [Modifier.flatMap_text]
    cases ms.flatMap Modifier.words <;> rfl
  have hwords : ∀ position, tokensFrom position 0 (ms.flatMap Modifier.text) =
      spell position (wordsOf (ms.flatMap Modifier.words)) := by
    intro position
    have htokens := tokensFrom_pieces (u := [])
      (modifierWords_legible (Modifier.mem_modifierWords ms)) position
    rwa [List.append_nil, tokensFrom, List.append_nil, ← Modifier.flatMap_text] at htokens
  have hfirst := tokensFrom_pieces (hhead (n.text ++ ms.flatMap Modifier.text).head?) 0
  have hnumber := n.tokensFrom_numeric hnext 16
  rw [hwords] at hnumber
  exact hfirst.trans (congrArg _ hnumber)

/-- The default value is all that is found after the type: what is left of the number is no
attribute, and neither are the modifiers. -/
theorem attributes_numericItem :
    turns (attributeTurn (numericItem n ms) "c")
        (⟨.word "DEFAULT", 8, 15⟩ :: (spell 16 n.pieces ++ laterTokens n ms)) =
      ([.default (some n.read)], []) := by
  have hgap : ∀ t ∈ (laterTokens n ms).head?, t.start ≠ 16 + n.text.length := by
    rw [laterTokens]
    cases ms.flatMap Modifier.words with
    | nil => nofun
    | cons w ws =>
        rintro t ⟨⟩
        exact Nat.succ_ne_self _
  have hdefault : readDefault (numericItem n ms) (spell 16 n.pieces ++ laterTokens n ms) =
      (some n.read, spell (16 + n.read.length) n.rest ++ laterTokens n ms) :=
    n.readDefault_numeric "c FLOAT DEFAULT " (ms.flatMap Modifier.text) hgap
  have hturn : attributeTurn (numericItem n ms) "c" ⟨.word "DEFAULT", 8, 15⟩
      (spell 16 n.pieces ++ laterTokens n ms) =
        .next (some (.default (some n.read)))
          (spell (16 + n.read.length) n.rest ++ laterTokens n ms) := by
    rw [attributeTurn.eq_def, if_pos (by decide), hdefault]
  have hidle : turns (attributeTurn (numericItem n ms) "c")
      (spell (16 + n.read.length) n.rest ++ laterTokens n ms) = ([], []) := by
    have hkeyword : ∀ k ∈ (["DEFAULT", "COMMENT", "REFERENCES"] : List Text),
        ∀ t ∈ spell (16 + n.read.length) n.rest ++ laterTokens n ms, t.isKeyword [k] = false := by
      have hbegins : ∀ k ∈ (["DEFAULT", "COMMENT", "REFERENCES"] : List Text),
          k.head?.any NumericLiteral.begins = false := by decide
      have hmodifier : ∀ k ∈ (["DEFAULT", "COMMENT", "REFERENCES"] : List Text),
          ∀ w ∈ modifierWords, [k].contains w.upper = false := by decide
      intro k hk t ht
      rcases List.mem_append.1 ht with ht | ht
      · exact NumericLiteral.isKeyword_part n.isPart_rest ht
          (List.forall_mem_singleton.2 (hbegins k hk))
      · exact isKeyword_modifierWords (Modifier.mem_modifierWords ms) [k] (hmodifier k hk) _ t ht
    refine turns_idle fun t ht rest => ?_
    rw [attributeTurn.eq_def, hkeyword "DEFAULT" (by decide) t ht,
      hkeyword "COMMENT" (by decide) t ht, hkeyword "REFERENCES" (by decide) t ht]
    rfl
  have hsplit : spell 16 n.pieces ++ laterTokens n ms =
      spell 16 (n.lead ++ n.body) ++
        (spell (16 + n.read.length) n.rest ++ laterTokens n ms) := by
    rw [NumericLiteral.pieces, ← List.append_assoc, spell_append, List.append_assoc, n.read_eq]
  rw [hsplit] at hturn ⊢
  rw [turns_next _ hturn, hidle]
  rfl

/-- The words after the type, with stand-ins for the tokens of the number. -/
def numericModifiers : List Text :=
  "DEFAULT" :: ((spell 16 n.pieces).map modifier ++ ms.flatMap Modifier.words)

/-- What such a column is read as. -/
def numericClause : ColumnClause :=
  { name := "c", rawType := "FLOAT", modifiers := numericModifiers n ms
    defaultValue := some n.read }

theorem classify_numericItem : classify (numericItem n ms) = .column (numericClause n ms) := by
  have htokens := tokenize_numericItem n ms
  have hclassify : classify (numericItem n ms) =
      classifyColumn (numericItem n ms) (tokenize (numericItem n ms)) := by
    rw [classify, htokens]
    rfl
  have hgroup : ∀ later : List Token, readGroup (⟨.word "DEFAULT", 8, 15⟩ :: later) =
      (none, ⟨.word "DEFAULT", 8, 15⟩ :: later) := fun _ => rfl
  have htype : ∀ later : List Token, readType (Text.upper "FLOAT") later =
      (Text.ofString "FLOAT", later) := fun _ => rfl
  have hzone : ∀ later : List Token, skipTimeZone "FLOAT" later = later := fun _ => rfl
  have hmodifiers : (laterTokens n ms).map modifier = ms.flatMap Modifier.words :=
    spell_modifierWords (Modifier.mem_modifierWords ms) _
  rw [hclassify, htokens, List.cons_append, List.cons_append, List.cons_append, List.nil_append,
    classifyColumn]
  simp only [Token.name?, htype, hgroup, hzone, attributes_numericItem, List.map_cons,
    List.map_append, hmodifiers]
  rfl

/-- No token of the number is taken for a keyword. -/
theorem hasPhrase_numeric {k : Text} (phrase : List Text) (hdefault : k ≠ "DEFAULT")
    (hk : k.head?.any NumericLiteral.begins = false) :
    hasPhrase (k :: phrase) (numericModifiers n ms) =
      hasPhrase (k :: phrase) (ms.flatMap Modifier.words) := by
  rw [numericModifiers, ← List.cons_append]
  refine hasPhrase_append (fun hmem => ?_) _
  rcases List.mem_cons.1 hmem with hsame | hmem
  · exact hdefault hsame
  · obtain ⟨t, ht, hsame⟩ := List.mem_map.1 hmem
    exact NumericLiteral.modifier_ne n.isPart_pieces ht hk hsame

theorem hasPhrase_numeric_words (m : Modifier) :
    hasPhrase m.words (numericModifiers n ms) = ms.contains m := by
  rw [← Modifier.hasPhrase_words m ms]
  cases m <;> exact hasPhrase_numeric n ms _ (by decide) (by decide)

theorem hasPhrase_numeric_other {k : Text} (hdefault : k ≠ "DEFAULT")
    (hk : k.head?.any NumericLiteral.begins = false) (hwords : k ∉ modifierWords) :
    hasPhrase [k] (numericModifiers n ms) = false := by
  have hnone : hasPhrase [k] (ms.flatMap Modifier.words ++ []) = hasPhrase [k] [] :=
    hasPhrase_append (fun hmem => hwords (Modifier.mem_modifierWords ms k hmem)) []
  rw [hasPhrase_numeric n ms [] hdefault hk, ← List.append_nil (ms.flatMap Modifier.words), hnone]
  rfl

/-- Building the clause gives a column with the number that was read as its default value and with
exactly the flags of the modifiers; the keys of the table may add to these. -/
theorem keyed_numericClause (clauses : List Clause) (id : Text) :
    keyed clauses (columnOf (numericClause n ms) {} id) =
      numericColumn n ms clauses (.str id) := by
  have hkey := hasPhrase_numeric_words n ms .primaryKey
  have hnull := hasPhrase_numeric_words n ms .notNull
  have hunique := hasPhrase_numeric_words n ms .unique
  simp only [Modifier.words] at hkey hnull hunique
  have hauto : hasPhrase ["AUTO_INCREMENT"] (numericModifiers n ms) = false :=
    hasPhrase_numeric_other n ms (by decide) (by decide) (by decide)
  have hautoincrement : hasPhrase ["AUTOINCREMENT"] (numericModifiers n ms) = false :=
    hasPhrase_numeric_other n ms (by decide) (by decide) (by decide)
  have hidentity : hasPhrase ["IDENTITY"] (numericModifiers n ms) = false :=
    hasPhrase_numeric_other n ms (by decide) (by decide) (by decide)
  have hunsigned : hasPhrase ["UNSIGNED"] (numericModifiers n ms) = false :=
    hasPhrase_numeric_other n ms (by decide) (by decide) (by decide)
  have htype : typeOf "FLOAT" = .float := by decide
  have hserial : serialTypes.contains (Text.ofString "FLOAT") = false := by decide
  have hadded : ∀ named flag : Bool,
      (if named = true then Value.bool true else .bool flag) = .bool (flag || named) := by decide
  simp only [keyed, columnOf, numericClause, numericColumn, hkey, hnull, hunique, hauto,
    hautoincrement, hidentity, hunsigned, htype, hserial, Bool.or_self, Value.ofText?, hadded]

end Column

/-! ## The whole reading -/

theorem statements_numericTable (n : NumericLiteral) (ms : List Modifier) :
    statements (numericTable n ms) = [.createTable "t" (numericItem n ms) {}] := by
  have hrow : ∀ r ∈ [Row.sentence (.create "t" (numericItem n ms))], r.WellFormed := by
    have htrim : Text.trim "t" = "t" := by decide
    have hne : ("t" : Text) ≠ [] := by decide
    refine List.forall_mem_singleton.2 ⟨htrim, hne, ?_, nofun⟩
    rintro _ _ ⟨⟩
    exact (isItem_numericItem n ms).solid.toNeutral
  have htext : textOf (Sentence.pieces '"' (.create "t" (numericItem n ms))) =
      numericTable n ms := by
    rw [numericTable, List.append_assoc]
    simp only [Sentence.pieces, textOf_cons, textOf_nil, Piece.text, parenthesized,
      List.append_nil, List.cons_append, List.append_assoc]
    rfl
  have hfound := statements_rows (.inl rfl) hrow
  rw [List.map_singleton, Text.join_cons, List.flatMap_nil, List.append_nil] at hfound
  rw [← htext]
  exact hfound

theorem splitItems_numericItem (n : NumericLiteral) (ms : List Modifier) :
    splitItems (numericItem n ms) = [numericItem n ms] := by
  have hsplit := splitItems_join [] rfl
    (List.forall_mem_singleton.2 (isItem_numericItem n ms))
  rwa [Text.join_cons, List.flatMap_nil, List.append_nil] at hsplit

/-- A table that is built from the clause of such a column has that column. -/
theorem mem_columns_numericColumn {n : NumericLiteral} {ms : List Modifier} {clauses : List Clause}
    {index : Nat} {name : Text} {options : TableOptions} {ids ids' : IdSupply} {t : Table}
    (h : (buildTable index name clauses options).Gives ids t ids')
    (hmem : .column (numericClause n ms) ∈ clauses) :
    ∃ id, numericColumn n ms clauses id ∈ t.columns := by
  obtain ⟨columns, mid, hcolumns, rfl, -⟩ := buildTable_gives.1 h
  have hclause : numericClause n ms ∈ clauses.filterMap Clause.column? :=
    List.mem_filterMap.2 ⟨_, hmem, rfl⟩
  obtain ⟨c, hc, arguments, id, harguments, rfl⟩ :=
    forall₂_mem_right (buildColumns_drawn hcolumns).2.flip hclause
  obtain rfl : arguments = {} := (Except.ok.inj harguments).symm
  refine ⟨.str id, List.mem_map.2 ⟨_, hc, ?_⟩⟩
  exact keyed_numericClause n ms clauses id

section Parse

variable (n : NumericLiteral) (ms : List Modifier)

/-- A table with such a column alone is read, whatever the number and the modifiers are. -/
theorem exists_parse_numericTable (ids : IdSupply) :
    ∃ parsed ids' t id, (parse (numericTable n ms)).Gives ids parsed ids' ∧
      parsed.tables = [t] ∧ t.name = .str "t" ∧ t.columns = [numericColumn n ms [] id] := by
  have hclauses : (splitItems (numericItem n ms)).map classify =
      [.column (numericClause n ms)] := by
    rw [splitItems_numericItem, List.map_cons, classify_numericItem]
    rfl
  have harguments : typeArguments (typeOf (numericClause n ms).rawType) [] = .ok {} := rfl
  obtain ⟨parsed, ids', t, id, hparsed, htables, hname, hcolumns⟩ :=
    exists_parse_column (statements_numericTable n ms) hclauses harguments rfl ids
  rw [keyed_numericClause] at hcolumns
  exact ⟨parsed, ids', t, .str id, hparsed, htables, hname, hcolumns⟩

/-- Every table that declares such a column has it, with the marks of its relations on it. -/
theorem exists_numericColumn {sql name body : Text} {options : TableOptions}
    {ids ids' : IdSupply} {parsed : Parsed} (hparsed : (parse sql).Gives ids parsed ids')
    (hstatement : .createTable name body options ∈ statements sql)
    (hitem : numericItem n ms ∈ splitItems body) :
    ∃ t ∈ parsed.tables, t.name = .str name ∧ ∃ c ∈ t.columns,
      Flags.cleared c = numericColumn n ms ((splitItems body).map classify) c.id := by
  obtain ⟨built, mid, hbuilt, -, -, htables⟩ := parse_links hparsed
  have hclause : .column (numericClause n ms) ∈ (splitItems body).map classify :=
    List.mem_map.2 ⟨_, hitem, classify_numericItem n ms⟩
  have hsome : ((splitItems body).map classify).filterMap Clause.column? ≠ [] :=
    List.ne_nil_of_mem (List.mem_filterMap.2 ⟨_, hclause, rfl⟩)
  obtain ⟨b, hb, hclauses, index, before, after, hbuild⟩ := exists_built hbuilt hstatement hsome
  rw [hclauses] at hbuild
  obtain ⟨id, hcolumn⟩ := mem_columns_numericColumn hbuild hclause
  have ht : decorate (hinted parsed.relations) b.table ∈ parsed.tables := by
    rw [htables]
    exact List.mem_map_of_mem (List.mem_map_of_mem hb)
  refine ⟨_, ht, (buildTable_drawn hbuild).2.1, _, List.mem_map_of_mem hcolumn, ?_⟩
  rw [cleared_hinted, Flags.hinted_id]
  rfl

end Parse

/-- A number as a default value is read up to the sign of its exponent, and what follows it says
exactly what its modifiers say.  So it is in every text with a table that declares such a column. -/
theorem parse_numeric_default (n : NumericLiteral) (ms : List Modifier) :
    (n.read = n.text ↔ ∀ e, n.exponent = some e → e.sign = none) ∧
      (∀ ids, ∃ parsed ids' t id, (parse (numericTable n ms)).Gives ids parsed ids' ∧
        parsed.tables = [t] ∧ t.name = .str "t" ∧ t.columns = [numericColumn n ms [] id]) ∧
      ∀ {sql : Text} {ids ids' : IdSupply} {parsed : Parsed},
        (parse sql).Gives ids parsed ids' → ∀ {name body : Text} {options : TableOptions},
          .createTable name body options ∈ statements sql → numericItem n ms ∈ splitItems body →
            ∃ t ∈ parsed.tables, t.name = .str name ∧ ∃ c ∈ t.columns,
              Flags.cleared c = numericColumn n ms ((splitItems body).map classify) c.id :=
  ⟨n.read_eq_text_iff, exists_parse_numericTable n ms,
    fun hparsed _ _ _ => exists_numericColumn n ms hparsed⟩

/-- One and a half thousandths, negated: a sign, a fraction, and an exponent with a sign. -/
def thousandths : NumericLiteral :=
  { sign := some .minus
    magnitude := .pointed ⟨"1", by decide, by decide⟩ (some ⟨"5", by decide, by decide⟩)
    exponent := some ⟨true, some .minus, ⟨"3", by decide, by decide⟩⟩ }

/-- The body of a table with such a number as a default value, and a key that spells the column
differently. -/
def thousandthsBody : Text :=
  "c FLOAT DEFAULT -1.5E-3 NOT NULL UNIQUE, primary key (C)"

/-- What its column is. -/
def thousandthsColumn (id : Value) : Column :=
  numericColumn thousandths [.notNull, .unique] ((splitItems thousandthsBody).map classify) id

theorem parse_numeric_default_keyed :
    numericItem thousandths [.notNull, .unique] = "c FLOAT DEFAULT -1.5E-3 NOT NULL UNIQUE" ∧
      ∃ parsed ids', (parse ("create table t (" ++ thousandthsBody ++ ")")).Gives {} parsed ids' ∧
        .createTable "t" thousandthsBody {} ∈
          statements ("create table t (" ++ thousandthsBody ++ ")") ∧
        numericItem thousandths [.notNull, .unique] ∈ splitItems thousandthsBody ∧
        ∃ t ∈ parsed.tables, t.name = .str "t" ∧ ∃ c ∈ t.columns,
          c.defaultValue = .str "-1.5E" ∧ c.isNullable = false ∧ c.isUnique = true ∧
            c.isPrimaryKey = true := by
  have htext : numericItem thousandths [.notNull, .unique] =
      "c FLOAT DEFAULT -1.5E-3 NOT NULL UNIQUE" := by
    decide +kernel
  have hcheck : ((parse ("create table t (" ++ thousandthsBody ++ ")")).runFrom {}).1.toOption.any
      (fun _ => true) = true := by
    rw [thousandthsBody]
    repeat rw [Text.ofString_ofList]
    decide +kernel
  have hstatement : .createTable "t" thousandthsBody {} ∈
      statements ("create table t (" ++ thousandthsBody ++ ")") := by
    rw [thousandthsBody]
    repeat rw [Text.ofString_ofList]
    decide +kernel
  have hitem : numericItem thousandths [.notNull, .unique] ∈ splitItems thousandthsBody := by
    decide +kernel
  have hcolumn : (thousandthsColumn .null).defaultValue = .str "-1.5E" ∧
      (thousandthsColumn .null).isNullable = false ∧ (thousandthsColumn .null).isUnique = true ∧
        (thousandthsColumn .null).isPrimaryKey = true := by
    decide +kernel
  obtain ⟨parsed, hparsed, -⟩ := Minting.gives_of_any hcheck rfl
  obtain ⟨-, -, hevery⟩ := parse_numeric_default thousandths [.notNull, .unique]
  obtain ⟨t, ht, hname, c, hc, hcleared⟩ := hevery hparsed hstatement hitem
  have hfields : c.defaultValue = (thousandthsColumn c.id).defaultValue ∧
      c.isNullable = (thousandthsColumn c.id).isNullable ∧
        c.isUnique = (thousandthsColumn c.id).isUnique ∧
          c.isPrimaryKey = (thousandthsColumn c.id).isPrimaryKey := by
    rw [thousandthsColumn, ← hcleared]
    exact ⟨rfl, rfl, rfl, rfl⟩
  refine ⟨htext, parsed, _, hparsed, hstatement, hitem, t, ht, hname, c, hc, ?_⟩
  rw [hfields.1, hfields.2.1, hfields.2.2.1, hfields.2.2.2]
  exact hcolumn

/-- The exponent of a small number is lost after its sign. -/
theorem parse_signed_exponent :
    ∃ n : NumericLiteral, n.text = "1e-5" ∧ numericItem n [] = "c FLOAT DEFAULT 1e-5" ∧
      ∃ parsed ids', (parse "CREATE TABLE t (c FLOAT DEFAULT 1e-5)").Gives {} parsed ids' ∧
        parsed.tables.map (·.columns.map Column.defaultValue) = [[.str "1e"]] := by
  have hcheck : ((parse "CREATE TABLE t (c FLOAT DEFAULT 1e-5)").runFrom {}).1.toOption.any
      (fun parsed => decide (parsed.tables.map (·.columns.map Column.defaultValue) =
        [[.str "1e"]])) = true := by
    repeat rw [Text.ofString_ofList]
    decide +kernel
  obtain ⟨parsed, hparsed, hcut⟩ := Minting.gives_of_any hcheck rfl
  exact ⟨⟨none, .whole ⟨"1", by decide, by decide⟩,
      some ⟨false, some .minus, ⟨"5", by decide, by decide⟩⟩⟩,
    by decide +kernel, by decide +kernel, parsed, _, hparsed, of_decide_eq_true hcut⟩

end SchemaDesk.Sql
