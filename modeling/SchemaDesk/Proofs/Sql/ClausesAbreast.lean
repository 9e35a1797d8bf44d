import SchemaDesk.Proofs.Sql.Abreast
import SchemaDesk.Proofs.Sql.Names

/-!
# Reading clauses abreast

Items whose tokens are paired are clauses of one kind, and say the same but for what they take from
literals and groups (`classify_abreast`).  Of a column these are the arguments of its type and the
attributes that follow the type: `attributesOf` lists them, each with the tokens that it was read
from.
-/

namespace SchemaDesk.Sql

/-! ## Columns in parts -/

/-- The name and the type at the front of a column, and the tokens after them. -/
def columnHead? : List Token → Option (Text × Text × List Token)
  | n :: t :: rest =>
      match n.name?, t.lexeme with
      | some name, .word type =>
          let (rawType, rest) := readType type.upper rest
          some (name, rawType, rest)
      | _, _ => none
  | _ => none

/-- The tokens of a column after its type and the arguments of that. -/
def attributeTokens (rawType : Text) (tokens : List Token) : List Token :=
  skipTimeZone rawType (readGroup tokens).2

/-- A column before its attributes are known. -/
def baseColumn (name rawType : Text) (tokens : List Token) : ColumnClause :=
  { name, rawType, arguments := splitItems ((readGroup tokens).1.getD []),
    modifiers := (attributeTokens rawType tokens).map modifier }

/-- The attributes of a column, each with the tokens that it takes after its keyword. -/
def attributesOf (item : Text) : List (Attribute × List Token) :=
  match columnHead? (tokenize item) with
  | some (name, rawType, tokens) =>
      (turns (withTaken (attributeTurn item name)) (attributeTokens rawType tokens)).1
  | none => []

theorem classifyColumn_eq (text : Text) (tokens : List Token) :
    classifyColumn text tokens =
      match columnHead? tokens with
      | some (name, rawType, rest) =>
          .column ((turns (attributeTurn text name) (attributeTokens rawType rest)).1.foldl
            ColumnClause.with (baseColumn name rawType rest))
      | none => .unrecognized text := by
  match tokens with
  | [] => rfl
  | [_] => rfl
  | n :: t :: rest =>
      rw [classifyColumn, columnHead?]
      cases n.name? with
      | none => rfl
      | some name => cases t.lexeme <;> rfl

section Clauses

variable {R : Token → Token → Prop} {P : List Token → List Token → Prop}
variable {ts us : List Token} (hP : Pairing R P 0)

include hP

/-! ## References -/

theorem readAction_abreast (h : P ts us) :
    (readAction ts).1 = (readAction us).1 ∧ P (readAction ts).2 (readAction us).2 := by
  -- the actions are tried in order, and each one is there on both sides or on neither
  have hactions : ∀ actions : List ReferentialAction,
      Option.Rel (fun a b => a.1 = b.1 ∧ P a.2 b.2)
        (actions.findSome? fun action =>
          (afterPhrase? action.keywords ts).map fun rest => (action, rest))
        (actions.findSome? fun action =>
          (afterPhrase? action.keywords us).map fun rest => (action, rest)) := by
    intro actions
    induction actions with
    | nil => exact .none
    | cons action actions ih =>
        rw [List.findSome?_cons, List.findSome?_cons]
        obtain ⟨hts, hus⟩ | ⟨rest, rest', hts, hus, hrest⟩ :=
          rel_cases (afterPhrase?_abreast hP h action.keywords)
        · rw [hts, hus]
          exact ih
        · rw [hts, hus]
          exact .some ⟨rfl, hrest⟩
  rw [readAction, readAction]
  obtain ⟨hts, hus⟩ | ⟨⟨action, rest⟩, ⟨action', rest'⟩, hts, hus, hsame, hrest⟩ :=
    rel_cases (hactions [.setNull, .setDefault, .noAction, .cascade, .restrict])
  · rw [hts, hus]
    exact ⟨rfl, h⟩
  · rw [hts, hus]
    exact ⟨congrArg some hsame, hrest⟩

theorem referenceTurn_abreast {t u : Token} (ht : R t u) (h : P (t :: ts) (u :: us))
    (hrest : P ts us) : Turn.Rel Eq P P (referenceTurn t ts) (referenceTurn u us) := by
  simp only [referenceTurn, (hP.kin ht).isKeyword]
  split
  · cases ts with
    | nil =>
        obtain rfl := hP.eq_nil hrest
        exact .stop hrest
    | cons e ts =>
        obtain ⟨e', us, rfl, he, hlater⟩ := hP.cons hrest
        obtain ⟨haction, hleft⟩ := readAction_abreast hP hlater
        have hsame : ∀ f : ReferentialAction → Event × ReferentialAction,
            Option.Rel Eq ((readAction ts).1.map f) ((readAction us).1.map f) := by
          intro f
          rw [haction]
          cases (readAction us).1.map f with
          | none => exact .none
          | some a => exact .some rfl
        simp only [(hP.kin he).isKeyword]
        split
        · exact .next (hsame _) hleft
        split
        · exact .next (hsame _) hleft
        split
        · exact .next .none hlater
        · exact .stop hrest
  split
  · exact .next .none hrest
  · exact .stop h

/-- References are read abreast if the groups of paired tokens list the same names. -/
theorem readReference_abreast
    (hnames : ∀ {t u b c}, R t u → t.lexeme = .group b → u.lexeme = .group c →
      namesIn (some b) = namesIn (some c))
    (columns : List Text) (name : Option Text) (h : P ts us) :
    (readReference columns name ts).1 = (readReference columns name us).1 ∧
      P (readReference columns name ts).2 (readReference columns name us).2 := by
  rw [readReference, readReference]
  obtain ⟨hts, hus⟩ | ⟨ts₁, us₁, hts, hus, hrest⟩ :=
    rel_cases (after?_abreast hP h ["REFERENCES"])
  · rw [hts, hus]
    exact ⟨rfl, h⟩
  obtain ⟨hname, hrest⟩ := readName_abreast hP hrest
  simp only [hts, hus]
  generalize readName ts₁ = target at hname hrest ⊢
  generalize readName us₁ = target' at hname hrest ⊢
  obtain ⟨target, ts₂⟩ := target
  obtain ⟨target', us₂⟩ := target'
  obtain rfl : target = target' := hname
  cases target with
  | none => exact ⟨rfl, hrest⟩
  | some target =>
      obtain ⟨hbody, hleft⟩ := readGroup_abreast hP hrest
      have hlisted : namesIn (readGroup ts₂).1 = namesIn (readGroup us₂).1 := by
        obtain ⟨hb, hc⟩ | ⟨b, c, hb, hc, t, u, ht, htb, huc, -⟩ := rel_cases hbody
        · rw [hb, hc]
        · rw [hb, hc]
          exact hnames ht htb huc
      obtain ⟨hactions, hend⟩ := turns_abreast_whole hP
        (fun _ _ _ _ => referenceTurn_abreast hP) hleft
      rw [List.forall₂_eq_eq_eq] at hactions
      simp only [hlisted, hactions]
      exact ⟨trivial, hend⟩

/-! ## Columns -/

theorem readType_abreast (lead : Text) (h : P ts us) :
    (readType lead ts).1 = (readType lead us).1 ∧ P (readType lead ts).2 (readType lead us).2 := by
  rw [readType, readType]
  cases typeFollower? lead with
  | none => exact ⟨rfl, h⟩
  | some follower =>
      obtain ⟨hts, hus⟩ | ⟨ts₁, us₁, hts, hus, hrest⟩ :=
        rel_cases (after?_abreast hP h [follower])
      · simp only [hts, hus]
        exact ⟨trivial, h⟩
      · simp only [hts, hus]
        exact ⟨trivial, hrest⟩

theorem attributeTokens_abreast (rawType : Text) (h : P ts us) :
    P (attributeTokens rawType ts) (attributeTokens rawType us) := by
  obtain ⟨-, hrest⟩ := readGroup_abreast hP h
  rw [attributeTokens, attributeTokens, skipTimeZone, skipTimeZone]
  split
  · obtain ⟨hts, hus⟩ | ⟨ts₁, us₁, hts, hus, hlater⟩ :=
      rel_cases (afterPhrase?_abreast hP hrest ["WITH", "TIME", "ZONE"])
    · simp only [hts, hus]
      exact skipPhrase_abreast hP hrest _
    · simp only [hts, hus]
      exact hlater
  · exact hrest

theorem columnHead?_abreast (h : P ts us) :
    Option.Rel (fun a b => a.1 = b.1 ∧ a.2.1 = b.2.1 ∧ P a.2.2 b.2.2) (columnHead? ts)
      (columnHead? us) := by
  match ts with
  | [] =>
      obtain rfl := hP.eq_nil h
      exact .none
  | [t] =>
      obtain ⟨u, us, rfl, -, hrest⟩ := hP.cons h
      obtain rfl := hP.eq_nil hrest
      exact .none
  | n :: t :: rest =>
      obtain ⟨n', us, rfl, hn, h'⟩ := hP.cons h
      obtain ⟨t', us, rfl, ht, hrest⟩ := hP.cons h'
      have hkin : t.lexeme.Kin t'.lexeme := hP.kin ht
      simp only [columnHead?, (hP.kin hn).name?]
      cases n'.name? with
      | none => exact .none
      | some name =>
          generalize t.lexeme = lexeme at hkin
          generalize t'.lexeme = lexeme' at hkin
          cases hkin with
          | word type =>
              obtain ⟨hraw, hleft⟩ := readType_abreast hP type.upper hrest
              exact .some ⟨rfl, hraw, hleft⟩
          | _ => exact .none

omit hP in
theorem map_modifier_abreast (hP : Pairing R P 0) (h : P ts us) :
    ts.map modifier = us.map modifier := by
  induction ts generalizing us with
  | nil =>
      obtain rfl := hP.eq_nil h
      rfl
  | cons t ts ih =>
      obtain ⟨u, us, rfl, ht, hrest⟩ := hP.cons h
      rw [List.map_cons, List.map_cons, (hP.kin ht).modifier, ih hrest]

end Clauses

/-! ## Literals -/

/-- Whether a lexeme goes on with a literal that touches it. -/
def Lexeme.joins : Lexeme → Bool
  | .word _ => true
  | .group _ => true
  | .mark c => c = '.'
  | _ => false

theorem literalRest_cons (stop : Nat) (t : Token) (rest : List Token) :
    literalRest stop (t :: rest) =
      if t.start = stop ∧ t.lexeme.joins = true then literalRest t.stop rest
      else (stop, t :: rest) := by
  rw [literalRest]
  cases ht : t.lexeme <;> simp [Lexeme.joins]

theorem literalRest_length_le (stop : Nat) (ts : List Token) :
    (literalRest stop ts).2.length ≤ ts.length := by
  induction ts generalizing stop with
  | nil => exact Nat.le_refl _
  | cons t ts ih =>
      rw [literalRest_cons]
      split
      · exact Nat.le_succ_of_le (ih t.stop)
      · exact Nat.le_refl _

/-- A literal goes on with some tokens, and ends with the last one of these. -/
theorem literalRest_spec (stop : Nat) (ts : List Token) :
    ∃ used, ts = used ++ (literalRest stop ts).2 ∧
      (literalRest stop ts).1 = (used.getLast?.map Token.stop).getD stop := by
  induction ts generalizing stop with
  | nil => exact ⟨[], rfl, rfl⟩
  | cons t ts ih =>
      rw [literalRest_cons]
      split
      · obtain ⟨used, hused, hstop⟩ := ih t.stop
        refine ⟨t :: used, congrArg (t :: ·) hused, ?_⟩
        rw [hstop, List.getLast?_cons]
        cases used.getLast? <;> rfl
      · exact ⟨[], rfl, rfl⟩

/-- A default that begins neither with a string literal nor with a group is a piece of the text. -/
theorem readDefault_piece (text : Text) {l : Lexeme}
    (h : ¬((∃ v, l = .literal v) ∨ ∃ b, l = .group b)) {start stop : Nat} {rest : List Token} :
    readDefault text (⟨l, start, stop⟩ :: rest) =
      (if (slice text start (literalRest stop rest).1).upper = "NULL" then none
        else some (slice text start (literalRest stop rest).1), (literalRest stop rest).2) := by
  cases l with
  | literal v => exact absurd (.inl ⟨v, rfl⟩) h
  | group b => exact absurd (.inr ⟨b, rfl⟩) h
  | _ => rfl

/-! ## Attributes -/

namespace Attribute

/-- The value of a default. -/
def default? : Attribute → Option (Option Text)
  | .default value => some value
  | _ => none

/-- The text of a comment. -/
def comment? : Attribute → Option Text
  | .comment text => some text
  | _ => none

/-- The key of a reference. -/
def reference? : Attribute → Option (Option ForeignKey)
  | .reference key => some key
  | _ => none

end Attribute

/-- The values of the defaults of a column, each with the tokens that it takes. -/
def defaultsOf (item : Text) : List (Option Text × List Token) :=
  (attributesOf item).filterMap fun found => found.1.default?.map (·, found.2)

/-- The comments of a column, each with the token that it is read from. -/
def commentsOf (item : Text) : List (Text × List Token) :=
  (attributesOf item).filterMap fun found => found.1.comment?.map (·, found.2)

/-- A column that says what the last ones of some attributes say. -/
structure ColumnClause.Says (c : ColumnClause) (attributes : List Attribute) : Prop where
  defaultValue : c.defaultValue = (attributes.filterMap Attribute.default?).getLast?.join
  comment : c.comment = (attributes.filterMap Attribute.comment?).getLast?
  references : c.references = (attributes.filterMap Attribute.reference?).getLast?.join

/-- Of attributes of one kind the last one counts. -/
theorem foldl_with (attributes : List Attribute) (c : ColumnClause) :
    attributes.foldl ColumnClause.with c =
      { c with
        defaultValue :=
          (attributes.filterMap Attribute.default?).getLast?.getD c.defaultValue
        comment := (attributes.filterMap Attribute.comment?).getLast?.or c.comment
        references :=
          (attributes.filterMap Attribute.reference?).getLast?.getD c.references } := by
  induction attributes generalizing c with
  | nil => rfl
  | cons a attributes ih =>
      rw [List.foldl_cons, ih]
      cases a <;>
        simp [ColumnClause.with, List.filterMap_cons, Attribute.default?, Attribute.comment?,
          Attribute.reference?, List.getLast?_cons]

/-- A column says what its attributes say, and nothing else. -/
theorem says_foldl (name rawType : Text) (tokens : List Token) (attributes : List Attribute) :
    (attributes.foldl ColumnClause.with (baseColumn name rawType tokens)).Says attributes := by
  rw [foldl_with]
  refine ⟨?_, ?_, ?_⟩
  · cases (attributes.filterMap Attribute.default?).getLast? <;> rfl
  · exact Option.or_none
  · cases (attributes.filterMap Attribute.reference?).getLast? <;> rfl

/-- How attributes compare that are found in paired lists of tokens of two items.  An attribute of
the first list comes with the tokens that it takes. -/
structure AttributeComparison (R : Token → Token → Prop) (P : List Token → List Token → Prop)
    (text text' : Text) (F : Attribute × List Token → Attribute → Prop) : Prop where
  names : ∀ {t u b c}, R t u → t.lexeme = .group b → u.lexeme = .group c →
    namesIn (some b) = namesIn (some c)
  value : ∀ {ts us}, P ts us →
    P (readDefault text ts).2 (readDefault text' us).2 ∧
      F (.default (readDefault text ts).1,
          ts.take (ts.length - (readDefault text ts).2.length))
        (.default (readDefault text' us).1)
  comment : ∀ {t u v w}, R t u → t.lexeme = .literal v → u.lexeme = .literal w →
    F (.comment v, [t]) (.comment w)
  reference : ∀ key used, F (.reference key, used) (.reference key)

section Items

variable {R : Token → Token → Prop} {P : List Token → List Token → Prop}
variable {ts us : List Token} {text text' : Text} {F : Attribute × List Token → Attribute → Prop}

theorem attributeTurn_abreast (hP : Pairing R P 0) (hF : AttributeComparison R P text text' F)
    (column : Text) {t u : Token} (ht : R t u) (h : P (t :: ts) (u :: us)) (hrest : P ts us) :
    Turn.Rel F P P (withTaken (attributeTurn text column) t ts)
      (attributeTurn text' column u us) := by
  simp only [withTaken, attributeTurn, (hP.kin ht).isKeyword]
  split
  · obtain ⟨hleft, hvalue⟩ := hF.value hrest
    exact .next (.some hvalue) hleft
  split
  · cases ts with
    | nil =>
        obtain rfl := hP.eq_nil hrest
        exact .next .none hrest
    | cons c ts =>
        obtain ⟨c', us, rfl, hc, hlater⟩ := hP.cons hrest
        have hkin : c.lexeme.Kin c'.lexeme := hP.kin hc
        have htake : (c :: ts).take ((c :: ts).length - ts.length) = [c] := by
          rw [List.length_cons, Nat.add_sub_cancel_left]
          rfl
        cases hlexeme : c.lexeme <;> cases hlexeme' : c'.lexeme <;>
          simp only [hlexeme, hlexeme'] at hkin ⊢ <;> cases hkin
        case literal.literal v w =>
          refine .next (.some ?_) hlater
          rw [htake]
          exact hF.comment hc hlexeme hlexeme'
        all_goals exact .next .none hlater
  split
  · obtain ⟨hkey, hleft⟩ := readReference_abreast hP hF.names [column] none h
    simp only [hkey]
    exact .next (.some (hF.reference _ _)) hleft
  · exact .next .none hrest

/-! ## Clauses -/

/-- Columns of two items whose tokens are paired.  The arguments of their types stand in paired
groups, and their attributes compare one by one. -/
structure ColumnAbreast (R : Token → Token → Prop)
    (F : Attribute × List Token → Attribute → Prop) (item : Text) (c d : ColumnClause) : Prop where
  name : c.name = d.name
  rawType : c.rawType = d.rawType
  modifiers : c.modifiers = d.modifiers
  arguments : ∃ b b' : Option Text,
    Option.Rel (fun b b' => ∃ t u, R t u ∧ t.lexeme = .group b ∧ u.lexeme = .group b') b b' ∧
      c.arguments = splitItems (b.getD []) ∧ d.arguments = splitItems (b'.getD [])
  attributes : c.Says ((attributesOf item).map Prod.fst) ∧
    ∃ found, d.Says found ∧ List.Forall₂ F (attributesOf item) found

/-- Clauses of two items of one kind: columns that compare, equal keys, or the items themselves where
they are not recognized. -/
inductive Clause.Rel (C : ColumnClause → ColumnClause → Prop) (text text' : Text) :
    Clause → Clause → Prop where
  | column {c d : ColumnClause} : C c d → Rel C text text' (.column c) (.column d)
  | key {k : Clause} : k.column? = none → Rel C text text' k k
  | unrecognized : Rel C text text' (.unrecognized text) (.unrecognized text')

theorem classifyColumn_abreast (hP : Pairing R P 0) (hF : AttributeComparison R P text text' F)
    (h : P (tokenize text) (tokenize text')) :
    Clause.Rel (ColumnAbreast R F text) text text' (classifyColumn text (tokenize text))
      (classifyColumn text' (tokenize text')) := by
  rw [classifyColumn_eq, classifyColumn_eq]
  obtain ⟨hts, hus⟩ | ⟨⟨name, rawType, ts⟩, ⟨name', rawType', us⟩, hts, hus, hname, hraw, hrest⟩ :=
    rel_cases (columnHead?_abreast hP h)
  · rw [hts, hus]
    exact .unrecognized
  · obtain rfl : name = name' := hname
    obtain rfl : rawType = rawType' := hraw
    replace hrest : P ts us := hrest
    have hattributes := attributeTokens_abreast hP rawType hrest
    have hfound := (turns_abreast_whole hP
      (fun _ _ _ _ => attributeTurn_abreast hP hF name) hattributes).1
    have hitem : attributesOf text = (turns (withTaken (attributeTurn text name))
        (attributeTokens rawType ts)).1 := by rw [attributesOf, hts]
    have hsame : (attributesOf text).map Prod.fst =
        (turns (attributeTurn text name) (attributeTokens rawType ts)).1 := by
      rw [hitem]
      exact (turns_withTaken _ _).1
    obtain ⟨hgroup, -⟩ := readGroup_abreast hP hrest
    simp only [hts, hus, ← hsame]
    refine .column ⟨?_, ?_, ?_, ?_, ?_⟩
    · rw [foldl_with, foldl_with]
      rfl
    · rw [foldl_with, foldl_with]
      rfl
    · rw [foldl_with, foldl_with]
      exact map_modifier_abreast hP hattributes
    · rw [foldl_with, foldl_with]
      refine ⟨(readGroup ts).1, (readGroup us).1, ?_, rfl, rfl⟩
      obtain ⟨hb, hc⟩ | ⟨b, c, hb, hc, t, u, ht, htb, huc, -⟩ := rel_cases hgroup
      · rw [hb, hc]
        exact .none
      · rw [hb, hc]
        exact .some ⟨t, u, ht, htb, huc⟩
    · refine ⟨says_foldl _ _ _ _, _, says_foldl _ _ _ _, ?_⟩
      rw [hitem]
      exact hfound

theorem skipIndexName_abreast (hP : Pairing R P 0) (h : P ts us) :
    P (skipIndexName ts) (skipIndexName us) := by
  cases ts with
  | nil =>
      obtain rfl := hP.eq_nil h
      exact h
  | cons t ts =>
      obtain ⟨u, us, rfl, ht, -⟩ := hP.cons h
      rw [skipIndexName, skipIndexName, (hP.kin ht).isGroup]
      split
      · exact h
      · exact (readName_abreast hP h).2

theorem namesIn_abreast (hP : Pairing R P 0) (hF : AttributeComparison R P text text' F)
    (h : P ts us) : namesIn (readGroup ts).1 = namesIn (readGroup us).1 := by
  obtain ⟨hb, hc⟩ | ⟨b, c, hb, hc, t, u, ht, htb, huc, -⟩ :=
    rel_cases (readGroup_abreast hP h).1
  · rw [hb, hc]
  · rw [hb, hc]
    exact hF.names ht htb huc

theorem classifyKey_abreast (hP : Pairing R P 0) (hF : AttributeComparison R P text text' F)
    (C : ColumnClause → ColumnClause → Prop) (name : Option Text) (h : P ts us) :
    Option.Rel (Clause.Rel C text text') (classifyKey text name ts)
      (classifyKey text' name us) := by
  have hchoice : ∀ {columns : List Text} {k : Clause}, k.column? = none →
      Clause.Rel C text text' (if columns.isEmpty then .unrecognized text else k)
        (if columns.isEmpty then .unrecognized text' else k) := by
    intro columns k hk
    split
    · exact .unrecognized
    · exact .key hk
  -- Both sides start with the same phrase, so the same kind of key is read on either.
  rw [classifyKey, classifyKey]
  obtain ⟨hts, hus⟩ | ⟨ts₁, us₁, hts, hus, hrest⟩ :=
    rel_cases (afterPhrase?_abreast hP h ["PRIMARY", "KEY"])
  case inr =>
    simp only [hts, hus, namesIn_abreast hP hF hrest]
    exact .some (hchoice rfl)
  obtain ⟨hts', hus'⟩ | ⟨ts₁, us₁, hts', hus', hrest⟩ :=
    rel_cases (afterPhrase?_abreast hP h ["FOREIGN", "KEY"])
  case inr =>
    have hindex : P (if nextIs ["REFERENCES"] ts₁ then ts₁ else skipIndexName ts₁)
        (if nextIs ["REFERENCES"] us₁ then us₁ else skipIndexName us₁) := by
      rw [nextIs_abreast hP hrest]
      split
      · exact hrest
      · exact skipIndexName_abreast hP hrest
    simp only [hts, hus, hts', hus']
    -- From here on only that the tokens left compare is needed, not where they come from.
    generalize (if nextIs _ ts₁ then ts₁ else skipIndexName ts₁) = ts₂ at hindex ⊢
    generalize (if nextIs _ us₁ then us₁ else skipIndexName us₁) = us₂ at hindex ⊢
    obtain ⟨hkey, -⟩ := readReference_abreast hP hF.names (namesIn (readGroup us₂).1) name
      (readGroup_abreast hP hindex).2
    simp only [namesIn_abreast hP hF hindex]
    generalize readReference _ name (readGroup ts₂).2 = found at hkey ⊢
    generalize readReference _ name (readGroup us₂).2 = found' at hkey ⊢
    obtain ⟨key, _⟩ := found
    obtain ⟨key', _⟩ := found'
    obtain rfl : key = key' := hkey
    cases key with
    | none => exact .some .unrecognized
    | some key => exact .some (hchoice rfl)
  obtain ⟨hts'', hus''⟩ | ⟨ts₁, us₁, hts'', hus'', hrest⟩ :=
    rel_cases (after?_abreast hP h ["UNIQUE"])
  · simp only [hts, hus, hts', hus', hts'', hus'']
    exact .none
  · have hindex := skipIndexName_abreast hP (skip_abreast hP hrest ["KEY", "INDEX"])
    simp only [hts, hus, hts', hus', hts'', hus'', namesIn_abreast hP hF hindex]
    exact .some (hchoice rfl)

theorem beginsSkipped_abreast (hP : Pairing R P 0) (h : P ts us) :
    beginsSkipped ts = beginsSkipped us := by
  cases ts with
  | nil =>
      obtain rfl := hP.eq_nil h
      rfl
  | cons t ts =>
      obtain ⟨u, us, rfl, ht, hrest⟩ := hP.cons h
      rw [beginsSkipped, beginsSkipped, (hP.kin ht).isKeyword, nextIs_abreast hP hrest]

/-- Items whose tokens are paired are clauses of one kind. -/
theorem classify_abreast (hP : Pairing R P 0) (hF : AttributeComparison R P text text' F)
    (h : P (tokenize text) (tokenize text')) :
    Clause.Rel (ColumnAbreast R F text) text text' (classify text) (classify text') := by
  have hkey : ∀ name ts us, P ts us → Option.Rel (Clause.Rel (ColumnAbreast R F text) text text')
      (classifyKey text name ts) (classifyKey text' name us) :=
    fun name _ _ h => classifyKey_abreast hP hF _ name h
  rw [classify, classify]
  obtain ⟨hts, hus⟩ | ⟨ts₁, us₁, hts, hus, hrest⟩ :=
    rel_cases (after?_abreast hP h ["CONSTRAINT"])
  · simp only [hts, hus]
    obtain ⟨hk, hk'⟩ | ⟨k, k', hk, hk', hsame⟩ := rel_cases (hkey none _ _ h)
    · simp only [hk, hk', beginsSkipped_abreast hP h]
      split
      · exact .unrecognized
      · exact classifyColumn_abreast hP hF h
    · simp only [hk, hk']
      exact hsame
  · simp only [hts, hus, nextIs_abreast hP hrest]
    obtain ⟨hname, hleft⟩ := readName_abreast hP hrest
    split
    · exact rel_getD (hkey none _ _ hrest) .unrecognized
    · rw [hname]
      exact rel_getD (hkey _ _ _ hleft) .unrecognized

end Items

end SchemaDesk.Sql
