import SchemaDesk.Proofs.Sql.Alike
import SchemaDesk.Proofs.Sql.RespacedTokens
import SchemaDesk.Proofs.Sql.StatementsAbreast

/-!
# Clauses of respaced texts

Respaced items are the same clauses, and the statements of respaced texts are respaced.  One thing
only shows how a text is spaced: the value of a default is taken from the text as it stands, and
when it is or has a group, the blanks in the group are taken with it (`hasGroupedDefault`).
-/

namespace SchemaDesk.Sql

/-! ## Tokens in step -/

/-- Ends of the tokens of two texts, with equal gaps between them. -/
def InStep (text text' : Text) (ts us : List Token) : Prop :=
  ∃ before before' t t', text = before ++ t ∧ text' = before' ++ t' ∧
    Ends before.length before'.length t t' ts us

/-- Tokens whose lexemes are the same, but that the bodies of groups are respaced. -/
def Token.Respaced (t u : Token) : Prop :=
  t.lexeme.Respaced u.lexeme

section InStep

variable {text text' t t' : Text} {ts us : List Token}

theorem Respaced.inStep (h : Respaced .bare t t') : InStep t t' (tokenize t) (tokenize t') :=
  ⟨[], [], t, t', rfl, rfl, h.tokens 0 0⟩

theorem InStep.cons {x : Token} (h : InStep text text' (x :: ts) us) :
    ∃ y us', us = y :: us' ∧ x.Respaced y ∧ InStep text text' ts us' := by
  obtain ⟨before, before', t, t', rfl, rfl, h⟩ := h
  cases h with
  | @cons _ _ g g' w w' t t' l l' _ us _ hword hrest =>
      refine ⟨_, us, rfl, hword.lexeme, before ++ (g ++ w), before' ++ (g' ++ w'), t, t', by simp,
        by simp, ?_⟩
      simpa [Nat.add_assoc] using hrest

theorem Ends.length_eq {p p' : Nat} (h : Ends p p' t t' ts us) : us.length = ts.length := by
  induction h with
  | nil => rfl
  | cons _ _ _ ih => rw [List.length_cons, List.length_cons, ih]

theorem pairing_inStep (text text' : Text) : Pairing Token.Respaced (InStep text text') 0 := by
  refine ⟨Lexeme.Respaced.kin, ?_, InStep.cons, ?_⟩
  · rintro us ⟨before, before', t, t', -, -, h⟩
    cases h
    rfl
  · rintro ts us ⟨before, before', t, t', -, -, h⟩
    exact h.length_eq

/-- What is left of the texts is respaced. -/
theorem Ends.respaced {p p' : Nat} (h : Ends p p' t t' ts us) : Respaced .bare t t' := by
  induction h with
  | nil hgap =>
      have hrest := hgap.respaced .nil
      rwa [List.append_nil, List.append_nil] at hrest
  | cons hgap hword _ ih => exact hgap.respaced (hword.text.append ih)

/-- Tokens from a first to a last one are cut out of respaced texts with what stands between them. -/
theorem Ends.span {p p' : Nat} {first first' last last' : Token}
    {span span' rest rest' : List Token}
    (h : Ends p p' t t' (span ++ rest) (span' ++ rest')) (hlength : span.length = span'.length)
    (hfirst : span.head? = some first) (hfirst' : span'.head? = some first')
    (hlast : span.getLast? = some last) (hlast' : span'.getLast? = some last') :
    ∃ g g' v v' u u', t = g ++ (v ++ u) ∧ t' = g' ++ (v' ++ u') ∧ Gap g g' ∧
      Respaced .bare v v' ∧ first.start = p + g.length ∧ last.stop = p + g.length + v.length ∧
      first'.start = p' + g'.length ∧ last'.stop = p' + g'.length + v'.length := by
  induction span generalizing span' first first' p p' t t' with
  | nil => cases hfirst
  | cons x span ih =>
      cases span' with
      | nil => cases hfirst'
      | cons y span' =>
          cases hfirst
          cases hfirst'
          cases h with
          | @cons _ _ g g' w w' t t' l l' _ _ hgap hword hrest =>
              cases span with
              | nil =>
                  obtain rfl := List.eq_nil_of_length_eq_zero (Nat.succ.inj hlength).symm
                  cases hlast
                  cases hlast'
                  exact ⟨g, g', w, w', t, t', rfl, rfl, hgap, hword.text, rfl, rfl, rfl, rfl⟩
              | cons z span =>
                  cases span' with
                  | nil => cases hlength
                  | cons z' span' =>
                      rw [List.getLast?_cons_cons] at hlast hlast'
                      obtain ⟨h, h', v, v', u, u', rfl, rfl, hnext, hv, -, hstop, -, hstop'⟩ :=
                        ih hrest (Nat.succ.inj hlength) rfl rfl hlast hlast'
                      refine ⟨g, g', w ++ (h ++ v), w' ++ (h' ++ v'), u, u', by simp, by simp, hgap,
                        hword.text.append (hnext.respaced hv), rfl, ?_, rfl, ?_⟩
                      · simp only [hstop, List.length_append, Nat.add_assoc]
                      · simp only [hstop', List.length_append, Nat.add_assoc]

end InStep

/-! ## Literals -/

theorem any_take_cons {t : Token} {ts left : List Token} (hleft : left.length ≤ ts.length) :
    ((t :: ts).take ((t :: ts).length - left.length)).any Token.isGroup =
      (t.isGroup || (ts.take (ts.length - left.length)).any Token.isGroup) := by
  rw [List.length_cons, Nat.succ_sub hleft, List.take_succ_cons, List.any_cons]

/-- A literal goes on for as many tokens in both texts, and it is the same unless there is a group
among these. -/
theorem Ends.literalRest {p p' : Nat} {t t' : Text} {ts us : List Token}
    (h : Ends p p' t t' ts us) :
    ∃ v v' u u', t = v ++ u ∧ t' = v' ++ u' ∧ (literalRest p ts).1 = p + v.length ∧
      (literalRest p' us).1 = p' + v'.length ∧
      Ends (p + v.length) (p' + v'.length) u u' (literalRest p ts).2 (literalRest p' us).2 ∧
      (v = v' ∨
        (ts.take (ts.length - (Sql.literalRest p ts).2.length)).any Token.isGroup = true) := by
  induction h with
  | @nil p p' g g' hgap => exact ⟨[], [], g, g', rfl, rfl, rfl, rfl, .nil hgap, .inl rfl⟩
  | @cons p p' g g' w w' t t' l l' ts us hgap hword hrest ih =>
      have hjoins : l.joins = l'.joins := by
        obtain ⟨hlexeme, -, -⟩ := hword
        cases hlexeme <;> rfl
      rw [literalRest_cons, literalRest_cons]
      by_cases hjoin : g = [] ∧ l.joins = true
      · -- the token touches what stands before it, in both texts
        obtain ⟨rfl, hl⟩ := hjoin
        obtain rfl := hgap.nil_iff.1 rfl
        rw [if_pos ⟨rfl, hl⟩, if_pos ⟨rfl, hjoins ▸ hl⟩]
        obtain ⟨v, v', u, u', rfl, rfl, hstop, hstop', hleft, hsame⟩ := ih
        refine ⟨w ++ v, w' ++ v', u, u', by simp, by simp, ?_, ?_, ?_, ?_⟩
        · simpa [Nat.add_assoc] using hstop
        · simpa [Nat.add_assoc] using hstop'
        · simpa [Nat.add_assoc] using hleft
        · rw [any_take_cons (literalRest_length_le _ ts), Bool.or_eq_true]
          obtain rfl | ⟨b, rfl⟩ := hword.same
          · obtain rfl | hgroup := hsame
            · exact .inl rfl
            · exact .inr (.inr hgroup)
          · exact .inr (.inl rfl)
      · have hgap' : ¬(g' = [] ∧ l'.joins = true) := by rwa [← hgap.nil_iff, ← hjoins]
        have hstart : ∀ {p : Nat} {g : Text} {l : Lexeme}, ¬(g = [] ∧ l.joins = true) →
            ¬(p + g.length = p ∧ l.joins = true) := by
          intro p g l h
          rwa [Nat.add_eq_left, List.length_eq_zero_iff]
        rw [if_neg (hstart hjoin), if_neg (hstart hgap')]
        exact ⟨[], [], _, _, rfl, rfl, rfl, rfl, .cons hgap hword hrest, .inl rfl⟩

/-! ## Attributes -/

/-- Attributes that are the same, or defaults with a group in the literal of the first one. -/
def SameBut (found : Attribute × List Token) (a : Attribute) : Prop :=
  found.1 = a ∨
    (∃ v v', found.1 = .default v ∧ a = .default v') ∧ found.2.any Token.isGroup = true

theorem Lexeme.Respaced.group_inv {l : Lexeme} {b : Text} (h : (Lexeme.group b).Respaced l) :
    ∃ b', l = .group b' ∧ Sql.Respaced .bare b b' := by
  cases h with
  | group hb => exact ⟨_, rfl, hb⟩

/-- Respaced groups list the same names. -/
theorem namesIn_respaced {b c : Text} (h : Respaced .bare b c) :
    namesIn (some b) = namesIn (some c) := by
  refine forall₂_filterMap_eq h.splitItems fun x y hxy => ?_
  have htokens := hxy.inStep
  generalize tokenize x = ts at htokens
  generalize tokenize y = us at htokens
  cases ts with
  | nil =>
      obtain rfl := (pairing_inStep x y).eq_nil htokens
      rfl
  | cons t ts =>
      obtain ⟨u, us, rfl, ht, -⟩ := htokens.cons
      have hkin : t.Kin u := Lexeme.Respaced.kin ht
      exact hkin.name?

theorem readDefault_respaced {text text' : Text} {ts us : List Token}
    (h : InStep text text' ts us) :
    InStep text text' (readDefault text ts).2 (readDefault text' us).2 ∧
      SameBut
        (.default (readDefault text ts).1, ts.take (ts.length - (readDefault text ts).2.length))
        (.default (readDefault text' us).1) := by
  have hstep := h
  obtain ⟨before, before', t, t', rfl, rfl, h⟩ := h
  cases h with
  | nil => exact ⟨hstep, .inl rfl⟩
  | @cons _ _ g g' w w' t t' l l' ts us hgap hword hrest =>
      obtain ⟨_, _, hcons, -, hrestStep⟩ := hstep.cons
      cases hcons
      obtain ⟨hlexeme, -, hsame⟩ := hword
      by_cases hplain : (∃ v, l = .literal v) ∨ ∃ b, l = .group b
      · obtain ⟨v, rfl⟩ | ⟨b, rfl⟩ := hplain
        · cases hlexeme
          exact ⟨hrestStep, .inl rfl⟩
        · obtain ⟨b', rfl, -⟩ := hlexeme.group_inv
          refine ⟨hrestStep, .inr ⟨⟨_, _, rfl, rfl⟩, ?_⟩⟩
          simp only [readDefault]
          rw [any_take_cons (Nat.le_refl _)]
          rfl
      · -- the literal is a piece of either text
        have hplain' : ¬((∃ v, l' = .literal v) ∨ ∃ b, l' = .group b) := by
          cases hlexeme with
          | literal v => exact absurd (.inl ⟨v, rfl⟩) hplain
          | group h => exact absurd (.inr ⟨_, rfl⟩) hplain
          | _ => simp
        obtain rfl | ⟨b, rfl⟩ := hsame
        case inr => exact absurd (.inr ⟨b, rfl⟩) hplain
        obtain ⟨v, v', u, u', rfl, rfl, hstop, hstop', hleft, hend⟩ := hrest.literalRest
        have hslice : ∀ (before g v u : Text),
            slice (before ++ (g ++ (w ++ (v ++ u)))) (before.length + g.length)
              (before.length + g.length + w.length + v.length) = w ++ v := by
          intro before g v u
          have hbetween := slice_middle (before ++ g) (w ++ v) u
          simpa [Nat.add_assoc] using hbetween
        rw [readDefault_piece _ hplain, readDefault_piece _ hplain', hstop, hstop', hslice, hslice]
        refine ⟨⟨before ++ (g ++ (w ++ v)), before' ++ (g' ++ (w ++ v')), u, u', by simp, by simp,
          ?_⟩, ?_⟩
        · simpa [Nat.add_assoc] using hleft
        · obtain rfl | hgroup := hend
          · exact .inl rfl
          · refine .inr ⟨⟨_, _, rfl, rfl⟩, ?_⟩
            rw [any_take_cons (literalRest_length_le _ ts), hgroup, Bool.or_true]

theorem attributes_respaced (text text' : Text) :
    AttributeComparison Token.Respaced (InStep text text') text text' SameBut := by
  refine ⟨?_, readDefault_respaced, ?_, fun _ _ => .inl rfl⟩
  · intro t u b c h hb hc
    rw [Token.Respaced, hb, hc] at h
    cases h with
    | group h => exact namesIn_respaced h
  · intro t u v w h hv hw
    rw [Token.Respaced, hv, hw] at h
    cases h
    exact .inl rfl

/-- Whether the default of a column, the last one if there are more, is or has a group. -/
def hasGroupedDefault (item : Text) : Bool :=
  (defaultsOf item).getLast?.any fun found => found.2.any Token.isGroup

/-! ## Columns -/

section Columns

variable {x y : Text} {c d : ColumnClause}

theorem numberArgument_respaced (h : Respaced .bare x y) : numberArgument x = numberArgument y := by
  -- digits are not blank, so that texts of digits are the same
  have hdigits : ∀ {x y : Text}, Respaced .bare x y → x.trim.all (·.is Text.isDigit) = true →
      x.trim = y.trim := by
    intro x y h hall
    refine h.trim.eq_of_solid fun c hc => ?_
    have hdigit := List.all_eq_true.1 hall c hc
    cases c with
    | surrogate i => cases hdigit
    | char c =>
        by_contra hblank
        have hnot := Text.isDigit_of_isBlank (Bool.not_eq_false _ ▸ hblank)
        rw [CodePoint.is_char, hnot] at hdigit
        cases hdigit
  rw [numberArgument, numberArgument]
  by_cases hx : x.trim.all (·.is Text.isDigit) = true
  · rw [hdigits h hx]
  · have hy : ¬y.trim.all (·.is Text.isDigit) = true := fun hy => hx (hdigits h.symm hy ▸ hy)
    rw [if_neg fun h => hx h.2, if_neg fun h => hy h.2]

theorem rel_getElem? {α β : Type} {R : α → β → Prop} {xs : List α} {ys : List β}
    (h : List.Forall₂ R xs ys) (i : Nat) : Option.Rel R xs[i]? ys[i]? := by
  cases hx : xs[i]? with
  | none =>
      rw [List.getElem?_eq_none_iff, h.length_eq, ← List.getElem?_eq_none_iff] at hx
      rw [hx]
      exact .none
  | some x =>
      obtain ⟨y, hy, hxy⟩ := forall₂_getElem? h hx
      rw [hy]
      exact .some hxy

theorem members_respaced {arguments arguments' : List Text}
    (h : List.Forall₂ (Respaced .bare) arguments arguments') :
    members arguments = members arguments' := by
  refine forall₂_filterMap_eq h fun x y hxy => ?_
  have htokens := hxy.inStep
  generalize tokenize x = ts at htokens
  generalize tokenize y = us at htokens
  cases ts with
  | nil =>
      obtain rfl := (pairing_inStep x y).eq_nil htokens
      rfl
  | cons t ts =>
      obtain ⟨u, us, rfl, ht, -⟩ := htokens.cons
      simp only [List.head?_cons, Option.map_some]
      have hlexeme : t.lexeme.Respaced u.lexeme := ht
      generalize t.lexeme = l at hlexeme
      generalize u.lexeme = l' at hlexeme
      cases hlexeme <;> rfl

/-- Respaced arguments say the same of any type. -/
theorem typeArguments_respaced {arguments arguments' : List Text}
    (h : List.Forall₂ (Respaced .bare) arguments arguments') (type : DataType) :
    typeArguments type arguments = typeArguments type arguments' := by
  have hnumber : numberArgumentAt arguments = numberArgumentAt arguments' := by
    funext i
    rw [numberArgumentAt, numberArgumentAt]
    obtain ⟨hx, hy⟩ | ⟨x, y, hx, hy, hxy⟩ := rel_cases (rel_getElem? h i)
    · rw [hx, hy]
    · rw [hx, hy]
      exact numberArgument_respaced hxy
  cases type <;> simp only [typeArguments, hnumber, members_respaced h]

/-- Two columns of respaced items. -/
structure ColumnClause.Respaced (item : Text) (c d : ColumnClause) : Prop where
  alike : c.Alike d
  comment : c.comment = d.comment
  memberValues : c.memberValues = d.memberValues
  defaultValue : hasGroupedDefault item = false → c.defaultValue = d.defaultValue

theorem SameBut.default? {found : Attribute × List Token} {a : Attribute} (h : SameBut found a) :
    Option.Rel (fun x v => x.1 = v ∨ x.2.any Token.isGroup = true)
      (found.1.default?.map (·, found.2)) a.default? := by
  obtain ⟨a', used⟩ := found
  obtain rfl | ⟨⟨v, v', rfl, rfl⟩, hgroup⟩ := h
  · cases a' with
    | default v => exact .some (.inl rfl)
    | _ => exact .none
  · exact .some (.inr hgroup)

theorem columnAbreast_respaced (h : ColumnAbreast Token.Respaced SameBut x c d) :
    c.Respaced x d := by
  obtain ⟨htold, found, htold', hfound⟩ := h.attributes
  have harguments : List.Forall₂ (Respaced .bare) c.arguments d.arguments := by
    obtain ⟨b, b', hgroup, hc, hd⟩ := h.arguments
    rw [hc, hd]
    obtain ⟨rfl, rfl⟩ | ⟨b, b', rfl, rfl, t, u, htu, hb, hb'⟩ := rel_cases hgroup
    · exact .nil
    · rw [Token.Respaced, hb, hb'] at htu
      cases htu with
      | group htu => exact htu.splitItems
  have htype : ∀ type, typeArguments type c.arguments = typeArguments type d.arguments :=
    typeArguments_respaced harguments
  refine ⟨⟨h.name, h.rawType, h.modifiers, ?_, ?_⟩, ?_, ?_, fun hplain => ?_⟩
  · rw [htold.references, htold'.references, List.filterMap_map]
    rw [forall₂_filterMap_eq hfound fun found a hfa => ?_]
    obtain rfl | ⟨⟨v, v', hv, rfl⟩, -⟩ := hfa
    · rfl
    · rw [Function.comp_apply, hv]
      rfl
  · rw [ColumnClause.sizes, ColumnClause.sizes, h.rawType, htype]
  · rw [htold.comment, htold'.comment, List.filterMap_map]
    rw [forall₂_filterMap_eq hfound fun found a hfa => ?_]
    obtain rfl | ⟨⟨v, v', hv, rfl⟩, -⟩ := hfa
    · rfl
    · rw [Function.comp_apply, hv]
      rfl
  · rw [ColumnClause.memberValues, ColumnClause.memberValues, h.rawType,
      members_respaced harguments]
  · -- the last defaults compare, and the first one of them has no group
    have hlast := forall₂_getLast? (forall₂_filterMap hfound fun _ _ h => SameBut.default? h)
    have hvalues : ((attributesOf x).map Prod.fst).filterMap Attribute.default? =
        (defaultsOf x).map Prod.fst := by
      rw [defaultsOf, List.filterMap_map, List.map_filterMap]
      refine List.filterMap_congr fun found _ => ?_
      rw [Function.comp_apply, Option.map_map]
      cases found.1.default? <;> rfl
    rw [htold.defaultValue, htold'.defaultValue, hvalues, List.getLast?_map]
    rw [hasGroupedDefault] at hplain
    change Option.Rel _ (defaultsOf x).getLast? _ at hlast
    obtain ⟨hnone, hnone'⟩ | ⟨found, v, hsome, hsome', hv⟩ := rel_cases hlast
    · rw [hnone, hnone']
      rfl
    · rw [hsome] at hplain
      rw [hsome, hsome']
      obtain rfl | hgroup := hv
      · rfl
      · rw [Option.any_some, hgroup] at hplain
        cases hplain

/-- Respaced items are clauses of one kind, which say the same. -/
theorem classify_respaced (h : Respaced .bare x y) :
    Clause.Rel (ColumnClause.Respaced x) x y (classify x) (classify y) := by
  have hrel := classify_abreast (pairing_inStep x y) (attributes_respaced x y) h.inStep
  generalize classify x = k at hrel
  generalize classify y = k' at hrel
  cases hrel with
  | column hcolumn => exact .column (columnAbreast_respaced hcolumn)
  | key hkey => exact .key hkey
  | unrecognized => exact .unrecognized

theorem clause_alike (h : Respaced .bare x y) : (classify x).Alike (classify y) := by
  have hrel := classify_respaced h
  generalize classify x = k at hrel
  generalize classify y = k' at hrel
  cases hrel with
  | column hcolumn => exact .column hcolumn.alike
  | key hkey => exact .key hkey
  | unrecognized => exact .unrecognized h.flattened

end Columns

/-! ## Statements -/

/-- Statements about one table with respaced bodies or actions. -/
inductive Statement.Respaced : Statement → Statement → Prop where
  | createTable {name body body' : Text} {options : TableOptions} : Sql.Respaced .bare body body' →
      Respaced (.createTable name body options) (.createTable name body' options)
  | alterTable {name actions actions' : Text} : Sql.Respaced .bare actions actions' →
      Respaced (.alterTable name actions) (.alterTable name actions')

theorem comparison_respaced (text text' : Text) :
    Comparison Token.Respaced (InStep text text') text text' fun found s => found.1.Respaced s := by
  refine ⟨?_, ?_, ?_⟩
  · rintro ⟨l, _, _⟩ ⟨l', _, _⟩ h
    have hlexeme : l.Respaced l' := h
    cases hlexeme <;> rfl
  · rintro t u b c used name options h hb hc -
    rw [Token.Respaced, hb, hc] at h
    cases h with
    | group h => exact .createTable h
  · rintro span span' first first' last last' used name hspans -
    obtain ⟨rest, rest', before, before', t, t', rfl, rfl, h⟩ := hspans.lists
    obtain ⟨g, g', v, v', u, u', rfl, rfl, -, hv, hstart, hstop, hstart', hstop'⟩ :=
      h.span hspans.tokens.length_eq hspans.first.1 hspans.first.2.1 hspans.last.1 hspans.last.2.1
    have hslice : ∀ before g v u : Text,
        slice (before ++ (g ++ (v ++ u))) (before.length + g.length)
          (before.length + g.length + v.length) = v := by
      intro before g v u
      have hbetween := slice_middle (before ++ g) v u
      simpa [Nat.add_assoc] using hbetween
    refine .alterTable ?_
    rw [hstart, hstop, hstart', hstop', hslice, hslice]
    exact hv

/-- Respaced actions add the same foreign keys. -/
theorem addedKeys_respaced {actions actions' : Text} (h : Respaced .bare actions actions') :
    addedKeys actions = addedKeys actions' := by
  refine forall₂_filterMap_eq h.splitItems fun x y hxy => ?_
  have htokens : Ends 0 0 x y (tokenize x) (tokenize y) := hxy.tokens 0 0
  generalize tokenize x = ts at htokens
  generalize tokenize y = us at htokens
  cases htokens with
  | nil => rfl
  | @cons _ _ g g' w w' _ _ l l' _ _ hgap hadd hrest =>
      cases hrest with
      | nil => rfl
      | @cons _ _ g₂ g₂' w₂ w₂' t t' l₂ l₂' ts us hgap₂ hfirst hrest =>
          have hkeyword : ∀ {t u : Token}, t.lexeme.Respaced u.lexeme →
              t.isKeyword ["ADD"] = u.isKeyword ["ADD"] :=
            fun hlexeme => Token.Kin.isKeyword hlexeme.kin ["ADD"]
          have hdrop : ∀ g w g₂ t : Text,
              (g ++ (w ++ (g₂ ++ t))).drop (0 + g.length + w.length + g₂.length) = t := by
            intro g w g₂ t
            simp [Nat.add_assoc]
          have hclause := classify_respaced (hfirst.text.append hrest.respaced)
          dsimp only
          rw [hkeyword (t := ⟨l, 0 + g.length, 0 + g.length + w.length⟩)
              (u := ⟨l', 0 + g'.length, 0 + g'.length + w'.length⟩) hadd.lexeme, hdrop, hdrop]
          generalize classify (w₂ ++ t) = k at hclause
          generalize classify (w₂' ++ t') = k' at hclause
          cases hclause <;> rfl

/-- Respaced statements are alike. -/
theorem Statement.Respaced.alike {s s' : Statement} (h : s.Respaced s') : s.Alike s' := by
  cases h with
  | createTable hbody =>
      refine .createTable (List.forall₂_map_left_iff.2 (List.forall₂_map_right_iff.2 ?_))
      exact hbody.splitItems.imp fun _ _ => clause_alike
  | alterTable hactions => exact .alterTable (addedKeys_respaced hactions)

/-- Respaced statements have the same columns, in respaced items. -/
theorem Statement.Respaced.columnItems {s s' : Statement} (h : s.Respaced s') :
    List.Forall₂ (Sql.Respaced .bare) s.columnItems s'.columnItems := by
  cases h with
  | createTable hbody =>
      refine List.rel_filter (fun x y hxy => ?_) hbody.splitItems
      show isColumnItem x = true ↔ isColumnItem y = true
      rw [isColumnItem, isColumnItem]
      have hclause := classify_respaced hxy
      generalize classify x = k at hclause
      generalize classify y = k' at hclause
      cases hclause <;> rfl
  | alterTable => exact .nil

end SchemaDesk.Sql
