import SchemaDesk.Proofs.Sql.Rewritten

/-!
# String literals are opaque

`literalStarts` lists where the literals of a text stand that are read as the default, the comment or
a member of a column.  If another literal stands in the place of one of them, the same is read but
for this one thing, which is what the other literal says (`parse_rewritten`).

A literal stands in one item of one table body.  All other items, and all other statements, are the
same whichever literal it is (`splitItems_rewritten`, `statements_rewritten`).
-/

namespace SchemaDesk.Sql

open Minting

/-! ## Where literals stand in a text -/

/-- Where the literals of the columns of a table body begin that have a use. -/
def literalStartsIn (use : LiteralUse) (body : Text) : List Nat :=
  (placedItems body).filterMap fun i =>
    if isColumnItem i.2 then (literalStart? use i.2).map (i.1 + ·) else none

/-- The statements that matter of a text without comments, each with the tokens that it takes. -/
def statementsIn (text : Text) : List (Statement × List Token) :=
  (turns (withTaken (statementTurn text)) (tokenize text)).1

/-- Where the literals begin that have a use, counted in the text without its comments. -/
def literalStarts (use : LiteralUse) (sql : Text) : List Nat :=
  (statementsIn (stripComments sql)).flatMap fun found =>
    match found.1, found.2.find? Token.isGroup with
    | .createTable _ body _, some g => (literalStartsIn use body).map (g.start + 1 + ·)
    | _, _ => []

/-- These are the statements of a text. -/
theorem map_statementsIn (sql : Text) :
    (statementsIn (stripComments sql)).map Prod.fst = statements sql :=
  (turns_withTaken _ _).1

/-! ## Table bodies -/

section Bodies

variable {before after l : Text} {use : LiteralUse}

theorem literalStartsIn_lt {body : Text} {k : Nat} (h : k ∈ literalStartsIn use body) :
    k < body.length := by
  obtain ⟨i, hi, hk⟩ := List.mem_filterMap.1 h
  split at hk
  · obtain ⟨k', hk', rfl⟩ := Option.map_eq_some_iff.1 hk
    have hbounds := placedItems_bounds hi
    have hlt := literalStart?_lt hk'
    omega
  · cases hk

/-- A literal that has a use stands in one item of its body, which is a column.  The other items are
the same whichever literal it is. -/
theorem splitItems_rewritten (h : Frame before after) (hl : IsLiteral l)
    (hstart : before.length ∈ literalStartsIn use (before ++ (l ++ after))) :
    ∃ (ps : List Text) (b a : Text) (qs : List Text) (c : ColumnClause), Frame b a ∧
      classify (b ++ (l ++ a)) = .column c ∧ literalStart? use (b ++ (l ++ a)) = some b.length ∧
      ∀ l', IsLiteral l' → splitItems (before ++ (l' ++ after)) = ps ++ (b ++ (l' ++ a)) :: qs := by
  obtain ⟨ps, b, a, qs, hframe, hb, hps, hitems⟩ := placedItems_frame h
  obtain ⟨rest, -, hrest, hplaced⟩ := hitems l hl
  obtain ⟨i, hi, hk⟩ := List.mem_filterMap.1 hstart
  split at hk
  case isFalse => cases hk
  next hcolumn =>
  obtain ⟨k, hk, hplace⟩ := Option.map_eq_some_iff.1 hk
  have hlt := literalStart?_lt hk
  rw [hplaced] at hi
  rcases List.mem_append.1 hi with hi | hi
  · have hbound := hps i hi
    omega
  rcases List.mem_cons.1 hi with rfl | hi
  · obtain ⟨c, hc⟩ := Option.isSome_iff_exists.1 hcolumn
    have hclause : classify (b ++ (l ++ a)) = .column c := by
      dsimp only at hc
      cases hclass : classify (b ++ (l ++ a)) <;> rw [hclass] at hc <;> cases hc
      rfl
    obtain rfl : k = b.length := by
      dsimp only at hplace
      omega
    refine ⟨ps.map Prod.snd, b, a, qs, c, hframe, hclause, hk, fun l' hl' => ?_⟩
    obtain ⟨rest', rfl, -, hplaced'⟩ := hitems l' hl'
    rw [← map_placedItems, hplaced', List.map_append, List.map_cons]
  · have hbound := hrest i hi
    omega

end Bodies

/-! ## Statements -/

section Statements

variable {before after l : Text} {use : LiteralUse}

theorem pairing_eq : Pairing Eq Eq 0 := by
  refine ⟨?_, ?_, ?_, ?_⟩
  · rintro t _ rfl
    exact Lexeme.Kin.refl t.lexeme
  · rintro _ rfl
    rfl
  · rintro t ts _ rfl
    exact ⟨t, ts, rfl, rfl, rfl⟩
  · rintro ts _ rfl
    rfl

/-- The body of a table stands in the first group that its statement takes. -/
theorem createTable_group {text : Text} {found : Statement × List Token}
    (h : found ∈ statementsIn text) {name body : Text} {options : TableOptions}
    (hcreate : found.1 = .createTable name body options) :
    ∃ g, found.2.find? Token.isGroup = some g ∧ g.lexeme = .group body := by
  have hgroups : Comparison Eq Eq text text fun found _ => ∀ name body options,
      found.1 = .createTable name body options →
        ∃ g, found.2.find? Token.isGroup = some g ∧ g.lexeme = .group body := by
    refine ⟨?_, ?_, ?_⟩
    · rintro t _ rfl
      rfl
    · rintro t _ b c used name options rfl hb - hfind name' body' options' ⟨⟩
      exact ⟨t, hfind, hb⟩
    · rintro span span' first first' last last' used name - - name' body' options' ⟨⟩
  have hall := statements_abreast pairing_eq hgroups (rfl : tokenize text = tokenize text)
  obtain ⟨i, hi, rfl⟩ := List.getElem_of_mem h
  exact hall.get hi (hall.length_eq ▸ hi) name body options hcreate

/-- A literal that has a use stands in one table body.  The other statements are the same whichever
literal it is. -/
theorem statements_rewritten (h : Frame before after) (hl : IsLiteral l) {sql : Text}
    (hsql : stripComments sql = before ++ (l ++ after))
    (hstart : before.length ∈ literalStarts use sql) :
    ∃ (earlier : List Statement) (name d e : Text) (options : TableOptions)
      (later : List Statement), Frame d e ∧ d.length ∈ literalStartsIn use (d ++ (l ++ e)) ∧
      ∀ l' sql', IsLiteral l' → stripComments sql' = before ++ (l' ++ after) →
        statements sql' = earlier ++ .createTable name (d ++ (l' ++ e)) options :: later := by
  obtain ⟨found, hfound, hplace⟩ := List.mem_flatMap.1 hstart
  split at hplace
  case h_2 => cases hplace
  next name body options g hcreate hfind =>
  obtain ⟨k, hk, hplace⟩ := List.mem_map.1 hplace
  obtain ⟨g', hfind', hg⟩ := createTable_group hfound hcreate
  cases hfind.symm.trans hfind'
  rw [hsql] at hfound
  -- the group of the body is the token that holds the literal
  obtain ⟨ts, x, us, hs, htokens⟩ := tokenize_frame h
  have hne := hl.ne_nil
  have hsublist : ((statementsIn (before ++ (l ++ after))).flatMap Prod.snd).Sublist
      (tokenize (before ++ (l ++ after))) := taken_sublist _ _
  have hgused : g ∈ found.2 := List.mem_of_find?_eq_some hfind
  have hmem : g ∈ tokenize (before ++ (l ++ after)) :=
    hsublist.subset (List.mem_flatMap.2 ⟨found, hfound, hgused⟩)
  have hstop := group_stop hmem hg
  have hlt := literalStartsIn_lt hk
  obtain rfl : g = x l := hs.eq_holder hne (htokens l hl ▸ hmem) (by omega) (by omega)
  have hgroup : (x l).isGroup = true := by rw [Token.isGroup, hg]
  obtain ⟨d, e, hframe, hd, hgroups⟩ := hs.holder.of_group hg
  rw [hgroups, Lexeme.group.injEq] at hg
  subst hg
  obtain rfl : k = d.length := by omega
  -- and no other statement takes it
  obtain ⟨xs, ys, hsplit⟩ := List.append_of_mem hfound
  have hnodup : ((xs ++ found :: ys).flatMap Prod.snd).Nodup := by
    rw [← hsplit]
    exact hsublist.nodup (tokenize_nodup _)
  refine ⟨xs.map Prod.fst, name, d, e, options, ys.map Prod.fst, hframe, hk,
    fun l' sql' hl' hsql' => ?_⟩
  have hpairs := statements_abreast (pairing_apart hs.holder l l')
    (comparison_apart hs.holder hgroup hl after) (tokenize_apart hs htokens hl hl')
  have hstatements : statements sql' = (turns (statementTurn (before ++ (l' ++ after)))
      (tokenize (before ++ (l' ++ after)))).1 := by rw [statements, hsql']
  rw [← hstatements] at hpairs
  rw [statementsIn] at hsplit
  rw [hsplit] at hpairs
  obtain ⟨s, hs', hfounds⟩ := forall₂_around hpairs fun f hf z hz =>
    hz.same (not_mem_others hnodup hgused f hf)
  rw [hs', hfounds.create hfind name _ options hcreate _ (hgroups l')]

end Statements

/-! ## Comments -/

/-- What is left of a text ends as the text does, or with a blank in the place of a comment. -/
def EndsAs (left t : Text) : Prop :=
  ∃ c, left.getLast? = some c ∧ (c = ' ' ∨ t.getLast? = some c)

theorem getLast?_cons_of_some {t : Text} {c : CodePoint} (h : t.getLast? = some c)
    (d : CodePoint) : (d :: t).getLast? = some c := by
  rw [List.getLast?_cons, h]
  rfl

theorem EndsAs.keep {left t : Text} (h : EndsAs left t) (d : CodePoint) :
    EndsAs (d :: left) t := by
  obtain ⟨c, hleft, ht⟩ := h
  exact ⟨c, getLast?_cons_of_some hleft d, ht⟩

theorem EndsAs.skip {left t : Text} (h : EndsAs left t) (d : CodePoint) :
    EndsAs left (d :: t) := by
  obtain ⟨c, hleft, ht⟩ := h
  exact ⟨c, hleft, ht.imp_right fun ht => getLast?_cons_of_some ht d⟩

/-- A text that ends outside comments leaves something that ends as it does, unless it is empty or
is the end of a comment. -/
theorem getLast?_stripFrom {state : CommentState} {t : Text} {quoting : Quoting}
    (hend : endFrom state t = .code quoting) :
    t = [] ∨ stripFrom state t = [] ∧ state = .block ∨ EndsAs (stripFrom state t) t := by
  fun_induction endFrom state t with
  | case1 => exact .inl rfl
  | case2 rest ih =>
      simp only [stripFrom, if_true]
      right; right
      rcases ih hend with rfl | ⟨-, hstate⟩ | hlast
      · exact ⟨_, rfl, .inr rfl⟩
      · cases hstate
      · exact (hlast.keep _).skip _
  | case3 c rest hbreak ih =>
      simp only [stripFrom, if_neg hbreak]
      right; right
      rcases ih hend with rfl | ⟨-, hstate⟩ | hlast
      · cases hend
      · cases hstate
      · exact hlast.skip c
  | case4 c => cases hend
  | case5 c e rest hclose ih =>
      simp only [stripFrom, if_pos hclose]
      right
      rcases ih hend with rfl | ⟨-, hstate⟩ | hlast
      · exact .inl ⟨rfl, trivial⟩
      · cases hstate
      · exact .inr ((hlast.skip e).skip c)
  | case6 c e rest hclose ih =>
      simp only [stripFrom, if_neg hclose]
      right
      rcases ih hend with hnil | ⟨hnil, -⟩ | hlast
      · cases hnil
      · exact .inl ⟨hnil, trivial⟩
      · exact .inr (hlast.skip c)
  | case7 quoting c => exact .inr (.inr ⟨c, rfl, .inr rfl⟩)
  | case8 quoting c e rest hline ih =>
      simp only [stripFrom, if_pos hline]
      right; right
      rcases ih hend with rfl | ⟨-, hstate⟩ | hlast
      · cases hend
      · cases hstate
      · exact (hlast.skip e).skip c
  | case9 quoting c e rest hline hblock ih =>
      simp only [stripFrom, if_neg hline, if_pos hblock]
      right; right
      rcases ih hend with rfl | ⟨hnil, -⟩ | hlast
      · exact ⟨_, rfl, .inl rfl⟩
      · exact ⟨_, by rw [hnil]; rfl, .inl rfl⟩
      · exact ((hlast.keep _).skip e).skip c
  | case10 quoting c e rest hline hblock ih =>
      simp only [stripFrom, if_neg hline, if_neg hblock]
      right; right
      rcases ih hend with hnil | ⟨-, hstate⟩ | hlast
      · cases hnil
      · cases hstate
      · exact (hlast.keep c).skip c

/-- A string literal that stands in a text outside comments and other quotes, and is no part of a
longer literal. -/
structure Standing (before literal after : Text) : Prop where
  isLiteral : IsLiteral literal
  outside : endFrom (.code .bare) before = .code .bare
  plain : .char '[' ∉ before
  first : before.getLast? ≠ some (.char '\'')
  last : after.head? ≠ some (.char '\'')

namespace Standing

variable {before literal after : Text}

/-- Comments are removed before a literal and after it. -/
theorem stripComments_eq (h : Standing before literal after) {l : Text} (hl : IsLiteral l) :
    stripComments (before ++ (l ++ after)) =
      stripComments before ++ (l ++ stripComments after) :=
  stripComments_around h.outside hl.isRun hl.ne_nil after

theorem frame (h : Standing before literal after) :
    Frame (stripComments before) (stripComments after) := by
  refine ⟨?_, fun hmem => ?_, fun hlast => ?_, fun hhead => ?_⟩
  · have hafter := after_stripFrom (.code .bare) before
    rwa [h.outside] at hafter
  · rcases mem_stripFrom hmem with hmem | hblank
    · exact h.plain hmem
    · cases hblank
  · rcases getLast?_stripFrom h.outside with rfl | ⟨-, hstate⟩ | ⟨c, hc, hblank | hbefore⟩
    · cases hlast
    · cases hstate
    · cases hlast.symm.trans (hc.trans (congrArg some hblank))
    · cases hlast.symm.trans hc
      exact h.first hbefore
  · rcases head?_stripFrom hhead with hblank | hblank | hafter
    · cases hblank
    · cases hblank
    · exact h.last hafter

end Standing

/-! ## The whole reading -/

section Columns

variable {α β : Type} {R : α → β → Prop} {items : List Text} {columns columns' : List Column}

/-- Columns with one outline that one item declares are the same. -/
theorem declaredBy_unique {item : Text} {c c' : Column} (h : DeclaredBy item c)
    (h' : DeclaredBy item c') (houtline : c.outline = c'.outline) : c = c' := by
  obtain ⟨clause, hclause, hdefault, hcomment, hmembers⟩ := h
  obtain ⟨clause', hclause', hdefault', hcomment', hmembers'⟩ := h'
  cases hclause.symm.trans hclause'
  exact Column.eq_of_outline houtline (hdefault.trans hdefault'.symm)
    (hcomment.trans hcomment'.symm) (hmembers.trans hmembers'.symm)

theorem forall₂_declaredBy_unique (h : List.Forall₂ DeclaredBy items columns)
    (h' : List.Forall₂ DeclaredBy items columns')
    (houtline : columns.map Column.outline = columns'.map Column.outline) : columns = columns' := by
  induction h generalizing columns' with
  | nil =>
      cases h'
      rfl
  | cons hc _ ih =>
      cases h' with
      | cons hc' hrest =>
          rw [List.map_cons, List.map_cons, List.cons.injEq] at houtline
          rw [declaredBy_unique hc hc' houtline.1, ih hrest houtline.2]

theorem forall₂_split {xs ys : List α} {x : α} {zs : List β}
    (h : List.Forall₂ R (xs ++ x :: ys) zs) :
    ∃ us z vs, zs = us ++ z :: vs ∧ List.Forall₂ R xs us ∧ R x z ∧ List.Forall₂ R ys vs := by
  induction xs generalizing zs with
  | nil =>
      cases h with
      | @cons _ z _ vs hz hvs => exact ⟨[], z, vs, rfl, .nil, hz, hvs⟩
  | cons x' xs ih =>
      cases h with
      | @cons _ u _ _ hu hrest =>
          obtain ⟨us, z, vs, rfl, hus, hz, hvs⟩ := ih hrest
          exact ⟨u :: us, z, vs, rfl, .cons hu hus, hz, hvs⟩

end Columns

/-- A literal that has a use in a text has it in one item of one table body.  Everything else is the
same whichever literal it is. -/
theorem columnItems_rewritten {before literal after : Text} {use : LiteralUse}
    (h : Standing before literal after)
    (hstart : (stripComments before).length ∈
      literalStarts use (before ++ (literal ++ after))) :
    ∃ (P : List Text) (b a : Text) (Q : List Text) (c : ColumnClause), Frame b a ∧
      classify (b ++ (literal ++ a)) = .column c ∧
      literalStart? use (b ++ (literal ++ a)) = some b.length ∧
      ∀ l d, IsLiteral l → classify (b ++ (l ++ a)) = .column d → c.Alike d →
        columnItems (before ++ (l ++ after)) = P ++ (b ++ (l ++ a)) :: Q ∧
        List.Forall₂ Statement.Alike (statements (before ++ (literal ++ after)))
          (statements (before ++ (l ++ after))) := by
  have hliteral := h.isLiteral
  obtain ⟨earlier, name, d, e, options, later, hframe, hin, hstatements⟩ :=
    statements_rewritten h.frame hliteral (h.stripComments_eq hliteral) hstart
  obtain ⟨ps, b, a, qs, c, hframe', hc, hplace, hitems⟩ :=
    splitItems_rewritten hframe hliteral hin
  refine ⟨earlier.flatMap Statement.columnItems ++ ps.filter isColumnItem, b, a,
    qs.filter isColumnItem ++ later.flatMap Statement.columnItems, c, hframe', hc, hplace,
    fun l d hl hd halike => ⟨?_, ?_⟩⟩
  · have hcolumn : isColumnItem (b ++ (l ++ a)) = true := congrArg (·.column?.isSome) hd
    rw [columnItems, hstatements l _ hl (h.stripComments_eq hl), List.flatMap_append,
      List.flatMap_cons, Statement.columnItems, hitems l hl, List.filter_append,
      List.filter_cons_of_pos hcolumn]
    simp only [List.append_assoc, List.cons_append]
  · rw [hstatements literal _ hliteral (h.stripComments_eq hliteral),
      hstatements l _ hl (h.stripComments_eq hl)]
    refine List.rel_append (List.forall₂_same.2 fun s _ => .refl s)
      (.cons (.createTable ?_) (List.forall₂_same.2 fun s _ => .refl s))
    rw [clausesOf, clausesOf, hitems literal hliteral, hitems l hl, List.map_append,
      List.map_append, List.map_cons, List.map_cons, hc, hd]
    exact List.rel_append (List.forall₂_same.2 fun k _ => .refl k)
      (.cons (.column halike) (List.forall₂_same.2 fun k _ => .refl k))

/-- Every text may stand in the place of a literal that is read as the default, the comment or a
member of a column.  The same identifiers are drawn and the same is read, but that the column says
that text. -/
theorem parse_rewritten {before literal after : Text} {use : LiteralUse} {parsed : Parsed}
    {ids ids' : IdSupply} (h : Standing before literal after)
    (hparse : (parse (before ++ (literal ++ after))).Gives ids parsed ids')
    (hstart : (stripComments before).length ∈
      literalStarts use (before ++ (literal ++ after))) :
    ∃ cs c cs', parsed.columns = cs ++ c :: cs' ∧ use.read c = some (.str (valueIn literal)) ∧
      ∀ v, ∃ parsed', (parse (before ++ (quoteLiteral v ++ after))).Gives ids parsed' ids' ∧
        parsed'.outline = parsed.outline ∧ parsed'.columns = cs ++ use.write v c :: cs' ∧
        use.read (use.write v c) = some (.str v) := by
  have hliteral := h.isLiteral
  obtain ⟨P, b, a, Q, clause, hframe, hclause, hplace, hitems⟩ := columnItems_rewritten h hstart
  have hcolumns := parse_columns hparse
  rw [(hitems literal clause hliteral hclause (.refl clause)).1] at hcolumns
  obtain ⟨cs, c, cs', hsplit, hcs, hc, hcs'⟩ := forall₂_split hcolumns
  refine ⟨cs, c, cs', hsplit, ?_, fun v => ?_⟩
  · -- the literal itself may stand in its place
    obtain ⟨same, hsame, hrewritten⟩ := column_apart hframe hliteral hliteral hclause hplace
    exact (hrewritten.columns hclause hsame hc hc rfl).2
  · have hquoted := isLiteral_quoteLiteral v
    obtain ⟨clause', hclause', hrewritten⟩ := column_apart hframe hliteral hquoted hclause hplace
    rw [valueIn_quoteLiteral] at hrewritten
    obtain ⟨hitems', halike⟩ := hitems _ clause' hquoted hclause' hrewritten.alike
    obtain ⟨parsed', hparse', houtline⟩ := parse_alike halike hparse
    have hcolumns' := parse_columns hparse'
    rw [hitems'] at hcolumns'
    obtain ⟨ds, d, ds', hsplit', hds, hd, hds'⟩ := forall₂_split hcolumns'
    have hcolumnOutlines := congrArg Parsed.columns houtline
    rw [Parsed.columns_outline, Parsed.columns_outline, hsplit, hsplit', List.map_append,
      List.map_append, List.map_cons, List.map_cons] at hcolumnOutlines
    obtain ⟨hearlier, hrest⟩ := List.append_inj hcolumnOutlines
      (by rw [List.length_map, List.length_map, ← hds.length_eq, hcs.length_eq])
    obtain ⟨hhere, hlater⟩ := List.cons.inj hrest
    obtain rfl := forall₂_declaredBy_unique hcs hds hearlier.symm
    obtain rfl := forall₂_declaredBy_unique hcs' hds' hlater.symm
    obtain ⟨rfl, hread⟩ := hrewritten.columns hclause hclause' hc hd hhere.symm
    exact ⟨parsed', hparse', houtline, hsplit', hread⟩

/-- A text up to the second member of an enumeration, and the rest of that text. -/
def aroundMember : Text × Text :=
  ("/* t's */ CREATE TABLE t (a ENUM('x', ", ") COMMENT 'c' DEFAULT 'x') -- 'q'\n")

/-- The second member may be any text, also one with quotes, parentheses or comment marks in it. -/
theorem parse_rewritten_member :
    Standing aroundMember.1 "'it''s'" aroundMember.2 ∧
      (stripComments aroundMember.1).length ∈
        literalStarts (.member 1) (aroundMember.1 ++ ("'it''s'" ++ aroundMember.2)) ∧
      ∃ parsed, (parse (aroundMember.1 ++ ("'it''s'" ++ aroundMember.2))).Gives {} parsed ⟨2⟩ ∧
        parsed.columns.map Column.enumValues = [.list ["x", "it's"]] ∧
        ∀ v, ∃ parsed', (parse (aroundMember.1 ++ (quoteLiteral v ++ aroundMember.2))).Gives {}
            parsed' ⟨2⟩ ∧
          parsed'.outline = parsed.outline ∧
          parsed'.columns.map Column.enumValues = [.list ["x", .str v]] := by
  have hstanding : Standing aroundMember.1 "'it''s'" aroundMember.2 :=
    ⟨by decide +kernel, by decide +kernel, by decide +kernel, by decide +kernel, by decide +kernel⟩
  have hstart : (stripComments aroundMember.1).length ∈
      literalStarts (.member 1) (aroundMember.1 ++ ("'it''s'" ++ aroundMember.2)) := by
    rw [aroundMember]
    repeat rw [Text.ofString_ofList]
    decide +kernel
  have hcheck :
      ((parse (aroundMember.1 ++ ("'it''s'" ++ aroundMember.2))).runFrom {}).1.toOption.any
        (fun parsed => decide (parsed.columns.map Column.enumValues = [.list ["x", "it's"]])) = true ∧
      ((parse (aroundMember.1 ++ ("'it''s'" ++ aroundMember.2))).runFrom {}).2 = ⟨2⟩ := by
    rw [aroundMember]
    repeat rw [Text.ofString_ofList]
    decide +kernel
  obtain ⟨parsed, hparsed, hmembers⟩ := Minting.gives_of_any hcheck.1 hcheck.2
  obtain ⟨cs, c, cs', hcolumns, -, hany⟩ := parse_rewritten hstanding hparsed hstart
  refine ⟨hstanding, hstart, parsed, hparsed, of_decide_eq_true hmembers, fun v => ?_⟩
  obtain ⟨parsed', hparsed', houtline, hcolumns', -⟩ := hany v
  refine ⟨parsed', hparsed', houtline, ?_⟩
  have hone := of_decide_eq_true hmembers
  rw [hcolumns, List.map_append, List.map_cons] at hone
  have hlength := congrArg List.length hone
  simp only [List.length_append, List.length_map, List.length_cons, List.length_nil] at hlength
  obtain rfl : cs = [] := List.eq_nil_of_length_eq_zero (by omega)
  obtain rfl : cs' = [] := List.eq_nil_of_length_eq_zero (by omega)
  have hc : c.enumValues = .list ["x", "it's"] := (List.cons.inj hone).1
  rw [hcolumns']
  simp only [LiteralUse.write, hc]
  rfl

end SchemaDesk.Sql
