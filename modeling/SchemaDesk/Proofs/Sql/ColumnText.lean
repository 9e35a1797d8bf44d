import SchemaDesk.Proofs.Schema.Sound
import SchemaDesk.Proofs.Sql.Turns
import SchemaDesk.Proofs.Sql.Words
import SchemaDesk.Sql.Parsed

/-!
# Columns as text

A column is written as its name, the keyword of its type with the arguments it needs, and its
modifiers.  Reading that text as an item of a table body gives a clause with exactly these parts
(`classify_column`), and of the arguments exactly what the type keeps of the column's size,
precision, scale and members (`knownType_writtenAs`).
-/

namespace SchemaDesk

/-! ## What can be written -/

/-- Null, or a natural number of no more digits than a numeral may have: a longer one is never read,
neither from a file nor from a text. -/
def Value.IsCount (v : Value) : Prop :=
  v = .null ∨ ∃ n : Nat, v = .int n ∧ (Nat.toDigits 10 n).length ≤ Numeral.maxDigits

/-- Null, or a list of texts. -/
def Value.IsMembers (v : Value) : Prop :=
  v = .null ∨ ∃ members : List Text, v = .list (members.map Value.str)

/-- A column with a text for its name, one of the known types, and numbers and members that suit
it. -/
structure Column.IsWritable (c : Column) : Prop where
  name : ∃ s, c.name = .str s
  type : ∃ type : DataType, c.type = .str type.name
  size : c.size.IsCount
  precision : c.precision.IsCount
  scale : c.scale.IsCount
  members : c.enumValues.IsMembers

/-- What a column of a type keeps of its size, precision, scale and members when it is written: a
text of bounded length always has a size, other sizes and precisions only where they are not zero, a
scale only beside a precision, and an enumeration always has a list of members. -/
def DataType.kept (type : DataType) (c : Column) : Sql.TypeArguments :=
  match type with
  | .varchar => { size := if c.size.isTruthy then c.size else .int Sql.defaultTextSize }
  | .char | .binary => { size := if c.size.isTruthy then c.size else .null }
  | .decimal | .float =>
      if c.precision.isTruthy then { precision := c.precision, scale := c.scale } else {}
  | .enum | .set => { enumValues := if c.enumValues.isTruthy then c.enumValues else .list [] }
  | _ => {}

namespace Sql

/-! ## Modifiers -/

theorem spell_wordsOf_modifiers (position : Nat) (ws : List Text) :
    (spell position (wordsOf ws)).map modifier = ws.map Text.upper := by
  induction ws generalizing position with
  | nil => rfl
  | cons w ws ih => exact congrArg (Text.upper w :: ·) (ih _)

/-- The keywords that can stand after the type of a written column. -/
def modifierWords : List Text :=
  ["PRIMARY", "KEY", "NOT", "NULL", "UNIQUE"]

section Modifiers

variable {ws : List Text} (h : ∀ w ∈ ws, w ∈ modifierWords)

include h

theorem modifierWords_legible : Legible none (wordsOf ws) := by
  have hall : ∀ w ∈ modifierWords, w ≠ [] ∧ w.all isWordChar = true := by decide
  exact wordsOf_legible (fun w hw => hall w (h w hw)) rfl

/-- Modifiers are words in upper case, so they are kept as they are. -/
theorem spell_modifierWords (position : Nat) :
    (spell position (wordsOf ws)).map modifier = ws := by
  have hall : ∀ w ∈ modifierWords, w.upper = w := by decide
  rw [spell_wordsOf_modifiers, List.map_congr_left fun w hw => hall w (h w hw), List.map_id']

/-- A word among the modifiers is no keyword that matters after the type. -/
theorem isKeyword_modifierWords (keywords : List Text)
    (hother : ∀ w ∈ modifierWords, keywords.contains w.upper = false) (position : Nat) :
    ∀ t ∈ spell position (wordsOf ws), t.isKeyword keywords = false := by
  intro t ht
  obtain ⟨w, hw, hlexeme⟩ := mem_spell_wordsOf ht
  rw [Token.isKeyword, hlexeme]
  exact hother w (h w hw)

/-- Modifiers are no attributes. -/
theorem attributes_modifierWords (text name : Text) (position : Nat) :
    turns (attributeTurn text name) (spell position (wordsOf ws)) = ([], []) := by
  refine turns_idle fun t ht rest => ?_
  have hdefault := isKeyword_modifierWords h ["DEFAULT"] (by decide) position t ht
  have hcomment := isKeyword_modifierWords h ["COMMENT"] (by decide) position t ht
  have hreferences := isKeyword_modifierWords h ["REFERENCES"] (by decide) position t ht
  rw [attributeTurn.eq_def, hdefault, hcomment, hreferences]
  rfl

/-- No modifier is taken for a time zone. -/
theorem skipTimeZone_modifierWords (rawType : Text) (position : Nat) :
    skipTimeZone rawType (spell position (wordsOf ws)) = spell position (wordsOf ws) := by
  have hwith := isKeyword_modifierWords h ["WITH"] (by decide) position
  have hwithout := isKeyword_modifierWords h ["WITHOUT"] (by decide) position
  rw [skipTimeZone]
  split
  · cases hspell : spell position (wordsOf ws) with
    | nil => rfl
    | cons t rest =>
        rw [hspell] at hwith hwithout
        simp only [afterPhrase?, skipPhrase, hwith t List.mem_cons_self,
          hwithout t List.mem_cons_self, Bool.false_eq_true, if_false, Option.getD_none]
  · rfl

end Modifiers

/-! ## Types -/

/-- The keywords of types that are written. -/
def writtenTypes : List Text :=
  "BINARY" :: DataType.all.map typeKeyword

theorem mem_writtenTypes (type : DataType) : typeKeyword type ∈ writtenTypes :=
  List.mem_cons_of_mem _ (List.mem_map_of_mem type.mem_all)

/-- A written type is one word in upper case. -/
theorem writtenTypes_word {k : Text} (h : k ∈ writtenTypes) :
    k ≠ [] ∧ k.all isWordChar = true ∧ k.upper = k ∧ typeFollower? k = none := by
  have hall : ∀ k ∈ writtenTypes,
      k ≠ [] ∧ k.all isWordChar = true ∧ k.upper = k ∧ typeFollower? k = none := by
    decide
  exact hall k h

/-- Arguments in parentheses, or nothing where there are none. -/
def argumentGroup (arguments : List Text) : List Piece :=
  if arguments = [] then [] else [.group (Text.join "," arguments)]

/-- What is written after the name of a column. -/
def typePieces (keyword : Text) (arguments modifiers : List Text) : List Piece :=
  .word keyword :: (argumentGroup arguments ++ wordsOf modifiers)

/-- A column as it is written. -/
def columnPieces (quote : CodePoint) (name keyword : Text) (arguments modifiers : List Text) :
    List Piece :=
  .name quote name :: .gap ' ' :: typePieces keyword arguments modifiers

section ColumnPieces

variable {quote : CodePoint} {name keyword : Text} {arguments modifiers : List Text}

theorem columnPieces_legible (hquote : quote = '"' ∨ quote = '`')
    (hkeyword : keyword ∈ writtenTypes) (harguments : ∀ a ∈ arguments, IsItem a)
    (hmodifiers : ∀ w ∈ modifiers, w ∈ modifierWords) :
    Legible none (columnPieces quote name keyword arguments modifiers) := by
  obtain ⟨hne, hall, -, -⟩ := writtenTypes_word hkeyword
  have hnext : ((textOf (argumentGroup arguments ++ wordsOf modifiers)).head?.or none).any
      isWordChar = false := by
    cases arguments with
    | nil => cases modifiers <;> rfl
    | cons a as => rfl
  have hbody : Neutral (Text.join "," arguments) :=
    .join (.char rfl) fun a ha => (harguments a ha).solid.toNeutral
  have hgroup : Legible ((textOf (wordsOf modifiers)).head?.or none) (argumentGroup arguments) := by
    rw [argumentGroup]
    split
    · exact .nil
    · refine .cons rfl (fun body hgroup => ?_) .nil
      rw [← Piece.group.inj hgroup]
      exact hbody
  have htype : Legible none (typePieces keyword arguments modifiers) :=
    .cons (reads_word hne hall hnext) (fun _ hword => by cases hword)
      (hgroup.append (modifierWords_legible hmodifiers))
  refine .cons ?_ (fun _ hword => by cases hword) (.cons rfl (fun _ hword => by cases hword) htype)
  rcases hquote with rfl | rfl <;> rfl

theorem columnPieces_isItem (hquote : quote = '"' ∨ quote = '`') (hkeyword : keyword ∈ writtenTypes)
    (harguments : ∀ a ∈ arguments, IsItem a) (hmodifiers : ∀ w ∈ modifiers, w ∈ modifierWords) :
    IsItem (textOf (columnPieces quote name keyword arguments modifiers)) := by
  have hlegible : Legible none (columnPieces quote name keyword arguments modifiers) :=
    columnPieces_legible hquote hkeyword harguments hmodifiers
  have hlast : ∃ q, (columnPieces quote name keyword arguments modifiers).getLast? = some q ∧
      q.lexeme?.isSome = true := by
    have hsplit : columnPieces quote name keyword arguments modifiers =
        ([.name quote name, .gap ' ', .word keyword] ++ argumentGroup arguments) ++
          wordsOf modifiers := rfl
    rw [hsplit, List.getLast?_append, wordsOf_getLast?]
    cases modifiers.getLast? with
    | some w => exact ⟨.word w, rfl, rfl⟩
    | none =>
        rw [argumentGroup]
        split
        · exact ⟨.word keyword, rfl, rfl⟩
        · exact ⟨_, rfl, rfl⟩
  obtain ⟨q, hq, htoken⟩ := hlast
  exact hlegible.isItem rfl hq htoken

/-- A written column is read as a clause with the parts it was written from. -/
theorem classify_column (hquote : quote = '"' ∨ quote = '`') (hkeyword : keyword ∈ writtenTypes)
    (harguments : ∀ a ∈ arguments, IsItem a) (hmodifiers : ∀ w ∈ modifiers, w ∈ modifierWords) :
    classify (textOf (columnPieces quote name keyword arguments modifiers)) =
      .column { name, rawType := keyword, arguments, modifiers } := by
  obtain ⟨-, -, hupper, hfollower⟩ := writtenTypes_word hkeyword
  have hlegible : Legible none (columnPieces quote name keyword arguments modifiers) :=
    columnPieces_legible hquote hkeyword harguments hmodifiers
  have htokens := tokenize_pieces hlegible
  generalize textOf (columnPieces quote name keyword arguments modifiers) = text at *
  -- after the keyword comes the group, if there is one, and then the modifiers
  have hspell : ∀ position, ∃ later,
      readGroup (spell position (argumentGroup arguments ++ wordsOf modifiers)) =
          (if arguments = [] then none else some (Text.join "," arguments),
            spell later (wordsOf modifiers)) := by
    intro position
    by_cases hnil : arguments = []
    · refine ⟨position, ?_⟩
      rw [argumentGroup, if_pos hnil, if_pos hnil, List.nil_append]
      cases modifiers <;> rfl
    · refine ⟨position + (textOf [.group (Text.join "," arguments)]).length, ?_⟩
      rw [argumentGroup, if_neg hnil, if_neg hnil, spell_append]
      rfl
  have hitems : splitItems ((if arguments = [] then none
      else some (Text.join "," arguments)).getD []) = arguments := by
    split
    · next hnil =>
        rw [hnil]
        rfl
    · exact splitItems_join [] rfl harguments
  obtain ⟨first, second, position, hcolumn⟩ : ∃ first second position,
      tokenize text = ⟨.quoted name, 0, first⟩ :: ⟨.word keyword, first + 1, second⟩ ::
        spell position (argumentGroup arguments ++ wordsOf modifiers) :=
    ⟨_, _, _, htokens⟩
  obtain ⟨later, hgroup⟩ := hspell position
  have hclassify : classify text = classifyColumn text (tokenize text) := by
    rw [classify, hcolumn]
    rfl
  have hlead : readType keyword (spell position (argumentGroup arguments ++ wordsOf modifiers)) =
      (keyword, spell position (argumentGroup arguments ++ wordsOf modifiers)) := by
    rw [readType, hfollower]
  rw [hclassify, hcolumn, classifyColumn]
  simp only [Token.name?, hupper, hlead, hgroup, hitems, skipTimeZone_modifierWords hmodifiers,
    attributes_modifierWords hmodifiers, spell_modifierWords hmodifiers, List.foldl_nil]

end ColumnPieces

/-! ## Arguments of types -/

theorem textOf_typePieces_nil (keyword : Text) : textOf (typePieces keyword [] []) = keyword := by
  simp [typePieces, argumentGroup, wordsOf, Piece.text]

theorem textOf_typePieces {arguments : List Text} (h : arguments ≠ []) (keyword : Text) :
    textOf (typePieces keyword arguments []) = withArguments keyword arguments := by
  simp [typePieces, argumentGroup, h, wordsOf, Piece.text, withArguments, parenthesized,
    Text.ofString, Text.ofChars]

/-- The text of a count is read as the count. -/
theorem numberArgument_text {v : Value} (h : v.IsCount) (hv : v ≠ .null) :
    IsItem v.text ∧ numberArgument v.text = .ok v := by
  obtain rfl | ⟨n, rfl, hlength⟩ := h
  · exact absurd rfl hv
  · rw [Value.text_int]
    have hitem := isItem_digits n
    refine ⟨hitem, ?_⟩
    have hdigits : (Text.ofChars (Nat.toDigits 10 n)).all (·.is Text.isDigit) = true := by
      rw [List.all_eq_true]
      intro c hc
      obtain ⟨d, hd, rfl⟩ := List.mem_map.1 hc
      exact isDigit_cases (motive := fun d => Text.isDigit d = true) (by decide)
        (Nat.isDigit_of_mem_toDigits (by decide) (by decide) hd)
    rw [numberArgument, hitem.trimmed.trim]
    simp only [if_pos (And.intro hitem.trimmed.ne_nil hdigits), Value.toInteger,
      Numeral.toInt?_digits hlength]
    rfl

/-- The literals of an enumeration are read as its members. -/
theorem members_literals (vs : List Text) : members (vs.map quoteLiteral) = vs.map Value.str := by
  induction vs with
  | nil => rfl
  | cons v vs ih =>
      have hlegible : Legible none [.literal v] := ⟨rfl, fun _ h => by simp at h⟩
      have htokens := tokenize_pieces hlegible
      rw [textOf_cons, textOf_nil, List.append_nil] at htokens
      have hfirst : (tokenize (quoteLiteral v)).head?.map Token.lexeme = some (.literal v) := by
        have htext : quoteLiteral v = Piece.text (.literal v) := rfl
        rw [htext, htokens]
        rfl
      rw [members] at ih ⊢
      rw [List.map_cons, List.filterMap_cons, hfirst, ih]
      rfl

/-- A type that was written as a keyword with arguments: it can be told from the keyword, and what
the column keeps from the arguments. -/
structure WrittenAs (type : DataType) (c : Column) (keyword : Text) (arguments : List Text) :
    Prop where
  text : knownType type c = .ok (textOf (typePieces keyword arguments []))
  known : keyword ∈ writtenTypes
  items : ∀ a ∈ arguments, IsItem a
  told : typeOf keyword = type
  kept : typeArguments type arguments = .ok (type.kept c)

/-- A keyword alone. -/
theorem WrittenAs.bare {type : DataType} {c : Column}
    (htext : knownType type c = .ok (typeKeyword type))
    (hkept : typeArguments type [] = .ok (type.kept c)) :
    WrittenAs type c (typeKeyword type) [] := by
  refine ⟨by rw [htext, textOf_typePieces_nil], mem_writtenTypes type,
    fun _ ha => absurd ha List.not_mem_nil, ?_, hkept⟩
  cases type <;> decide

/-- A keyword with arguments. -/
theorem WrittenAs.arguments {type : DataType} {c : Column} {keyword : Text} {arguments : List Text}
    (htext : knownType type c = .ok (withArguments keyword arguments)) (hne : arguments ≠ [])
    (hkeyword : keyword ∈ writtenTypes) (htype : typeOf keyword = type)
    (hitems : ∀ a ∈ arguments, IsItem a)
    (hkept : typeArguments type arguments = .ok (type.kept c)) :
    WrittenAs type c keyword arguments :=
  ⟨by rw [htext, textOf_typePieces hne], hkeyword, hitems, htype, hkept⟩

/-- One number as the argument. -/
theorem numberArgumentAt_singleton {v : Value} (h : v.IsCount) (hv : v ≠ .null) :
    numberArgumentAt [v.text] 0 = .ok v :=
  (numberArgument_text h hv).2

theorem Value.ne_null_of_isTruthy {v : Value} (h : v.isTruthy = true) : v ≠ .null := by
  rintro rfl
  cases h

section KnownType

variable {c : Column} (hc : c.IsWritable)

include hc

theorem varchar_writtenAs : ∃ arguments, WrittenAs .varchar c (typeKeyword .varchar) arguments := by
  by_cases hsize : c.size.isTruthy = true
  · have hne := Value.ne_null_of_isTruthy hsize
    refine ⟨[c.size.text], .arguments ?_ (by simp) (mem_writtenTypes _) (by decide) ?_ ?_⟩
    · rw [knownType, if_pos hsize]
    · rintro a ha
      rw [List.mem_singleton.1 ha]
      exact (numberArgument_text hc.size hne).1
    · rw [typeArguments, numberArgumentAt_singleton hc.size hne, DataType.kept, if_pos hsize]
      rfl
  · -- without a size the default one is written, and read like any other
    have hdefault : (Value.int defaultTextSize).IsCount := .inr ⟨defaultTextSize, rfl, by decide⟩
    have hread := numberArgument_text hdefault (by simp)
    have htext : (Value.int defaultTextSize).text = Text.ofString (toString defaultTextSize) := rfl
    rw [htext] at hread
    refine ⟨[Text.ofString (toString defaultTextSize)], .arguments ?_ (by simp)
      (mem_writtenTypes _) (by decide) ?_ ?_⟩
    · rw [knownType, if_neg hsize]
    · rintro a ha
      rw [List.mem_singleton.1 ha]
      exact hread.1
    · have hnumber : numberArgumentAt [Text.ofString (toString defaultTextSize)] 0 =
          .ok (.int defaultTextSize) := hread.2
      rw [typeArguments, hnumber, DataType.kept, if_neg hsize]
      rfl

/-- A type that is written with its size where there is one. -/
theorem sized_writtenAs {type : DataType} (htype : type = .char ∨ type = .binary) :
    ∃ keyword arguments, WrittenAs type c keyword arguments := by
  by_cases hsize : c.size.isTruthy = true
  · have hne := Value.ne_null_of_isTruthy hsize
    have hitems : ∀ a ∈ [c.size.text], IsItem a := by
      rintro a ha
      rw [List.mem_singleton.1 ha]
      exact (numberArgument_text hc.size hne).1
    have hnumber := numberArgumentAt_singleton hc.size hne
    rcases htype with rfl | rfl
    · refine ⟨typeKeyword .char, [c.size.text], .arguments ?_ (by simp) (mem_writtenTypes _)
        (by decide) hitems ?_⟩
      · rw [knownType, if_pos hsize]
      · rw [typeArguments, hnumber, DataType.kept, if_pos hsize]
        rfl
    · refine ⟨"BINARY", [c.size.text], .arguments ?_ (by simp) List.mem_cons_self
        (by decide) hitems ?_⟩
      · rw [knownType, if_pos hsize]
      · rw [typeArguments, hnumber, DataType.kept, if_pos hsize]
        rfl
  · refine ⟨typeKeyword type, [], .bare ?_ ?_⟩
    · rcases htype with rfl | rfl <;> rw [knownType, if_neg hsize]
    · rcases htype with rfl | rfl <;> rw [DataType.kept, if_neg hsize] <;> rfl

/-- A type that is written with its precision, and its scale, where there is one. -/
theorem precise_writtenAs {type : DataType} (htype : type = .decimal ∨ type = .float) :
    ∃ arguments, WrittenAs type c (typeKeyword type) arguments := by
  by_cases hprecision : c.precision.isTruthy = true
  · have hne := Value.ne_null_of_isTruthy hprecision
    obtain ⟨hitem, hnumber⟩ := numberArgument_text hc.precision hne
    have htypeOf : typeOf (typeKeyword type) = type := by
      rcases htype with rfl | rfl <;> decide
    by_cases hscale : c.scale = .null
    · refine ⟨[c.precision.text], .arguments ?_ (by simp) (mem_writtenTypes _) htypeOf ?_ ?_⟩
      · rcases htype with rfl | rfl <;> rw [knownType, if_pos hprecision, if_pos hscale]
      · rintro a ha
        rw [List.mem_singleton.1 ha]
        exact hitem
      · have hfirst : numberArgumentAt [c.precision.text] 0 = .ok c.precision := hnumber
        rcases htype with rfl | rfl <;>
          rw [typeArguments, hfirst, DataType.kept, if_pos hprecision, hscale] <;> rfl
    · obtain ⟨hscaleItem, hscaleNumber⟩ := numberArgument_text hc.scale hscale
      refine ⟨[c.precision.text, c.scale.text], .arguments ?_ (by simp) (mem_writtenTypes _)
        htypeOf ?_ ?_⟩
      · rcases htype with rfl | rfl <;> rw [knownType, if_pos hprecision, if_neg hscale]
      · rintro a ha
        rcases List.mem_cons.1 ha with rfl | ha
        · exact hitem
        · rw [List.mem_singleton.1 ha]
          exact hscaleItem
      · have hfirst : numberArgumentAt [c.precision.text, c.scale.text] 0 = .ok c.precision :=
          hnumber
        have hsecond : numberArgumentAt [c.precision.text, c.scale.text] 1 = .ok c.scale :=
          hscaleNumber
        rcases htype with rfl | rfl <;>
          rw [typeArguments, hfirst, hsecond, DataType.kept, if_pos hprecision] <;> rfl
  · refine ⟨[], .bare ?_ ?_⟩
    · rcases htype with rfl | rfl <;> rw [knownType, if_neg hprecision]
    · rcases htype with rfl | rfl <;> rw [DataType.kept, if_neg hprecision] <;> rfl

/-- A type that is written with its members where there are some. -/
theorem members_writtenAs {type : DataType} (htype : type = .enum ∨ type = .set) :
    ∃ arguments, WrittenAs type c (typeKeyword type) arguments := by
  by_cases htruthy : c.enumValues.isTruthy = true
  · obtain hnull | ⟨vs, hvs⟩ := hc.members
    · exact absurd hnull (Value.ne_null_of_isTruthy htruthy)
    · have hne : vs ≠ [] := by
        rintro rfl
        rw [hvs] at htruthy
        cases htruthy
      have hliterals : memberLiterals c.enumValues = .ok (vs.map quoteLiteral) := by
        rw [hvs, memberLiterals]
        simp only [Value.elements?]
        rw [List.mapM_map]
        exact mapM_eq_ok fun v _ => rfl
      have hknown : knownType type c = .ok (withArguments (typeKeyword type)
          (vs.map quoteLiteral)) := by
        rcases htype with rfl | rfl <;> rw [knownType, if_pos htruthy, hliterals] <;> rfl
      refine ⟨vs.map quoteLiteral, .arguments hknown (by simpa using hne) (mem_writtenTypes _)
        ?_ ?_ ?_⟩
      · rcases htype with rfl | rfl <;> decide
      · rintro a ha
        obtain ⟨v, -, rfl⟩ := List.mem_map.1 ha
        exact isItem_quoteLiteral v
      · rcases htype with rfl | rfl <;>
          rw [typeArguments, members_literals, DataType.kept, if_pos htruthy, hvs]
  · refine ⟨[], .bare ?_ ?_⟩
    · rcases htype with rfl | rfl <;> rw [knownType, if_neg htruthy]
    · rcases htype with rfl | rfl <;> rw [DataType.kept, if_neg htruthy] <;> rfl

/-- Every type of a writable column can be told from what is written. -/
theorem knownType_writtenAs (type : DataType) :
    ∃ keyword arguments, WrittenAs type c keyword arguments := by
  cases type with
  | varchar => exact ⟨_, varchar_writtenAs hc⟩
  | char => exact sized_writtenAs hc (.inl rfl)
  | binary => exact sized_writtenAs hc (.inr rfl)
  | decimal => exact ⟨_, precise_writtenAs hc (.inl rfl)⟩
  | float => exact ⟨_, precise_writtenAs hc (.inr rfl)⟩
  | enum => exact ⟨_, members_writtenAs hc (.inl rfl)⟩
  | set => exact ⟨_, members_writtenAs hc (.inr rfl)⟩
  | _ => exact ⟨_, [], .bare rfl rfl⟩

end KnownType

end Sql

end SchemaDesk
