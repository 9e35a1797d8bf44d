import SchemaDesk.Proofs.Sql.LiteralUse

/-!
# Columns with another literal

If another literal stands in the place of a use, the column is the same but for this one thing, which
is what the other literal says (`column_apart`).  The token that holds the literal is taken for one
attribute at most.  So all other attributes are read from the same tokens in both items.
-/

namespace SchemaDesk

theorem Column.eq_of_outline {c c' : Column} (h : c.outline = c'.outline)
    (hdefault : c.defaultValue = c'.defaultValue) (hcomment : c.comment = c'.comment)
    (hmembers : c.enumValues = c'.enumValues) : c = c' := by
  cases c
  cases c'
  simp only [outline, mk.injEq] at h hdefault hcomment hmembers ⊢
  simp only [h, hdefault, hcomment, hmembers, and_self]

theorem LiteralUse.write_outline (use : LiteralUse) (v : Text) (c : Column) :
    (use.write v c).outline = c.outline := by
  cases use with
  | default => rfl
  | comment => rfl
  | member i =>
      simp only [write]
      cases c.enumValues <;> rfl

namespace Sql

/-! ## Items with another literal -/

/-- A column with another text in the place of a literal. -/
inductive ColumnClause.Rewritten (v : Text) (c : ColumnClause) :
    LiteralUse → ColumnClause → Prop where
  | default : Rewritten v c .default { c with defaultValue := some v }
  | comment : Rewritten v c .comment { c with comment := some v }
  | member {ps qs : List Text} {p q u : Text} :
      (typeOf c.rawType = .enum ∨ typeOf c.rawType = .set) → c.arguments = ps ++ p :: qs →
      member? p = some u → member? q = some v →
      Rewritten v c (.member (ps.filterMap member?).length) { c with arguments := ps ++ q :: qs }

section Frames

variable {before after b a l l' : Text} {c : ColumnClause} {ts us : List Token} {x : Text → Token}

/-- A literal that a member begins with is the member, and another literal in its place is another
member in the same place. -/
theorem placedMembers_frame (h : Frame before after) (hl : IsLiteral l) {i : Nat} {p : Nat × Text}
    (hp : (placedMembers (before ++ (l ++ after)))[i]? = some p) (hstart : p.1 = before.length) :
    ∃ (ps : List Text) (a : Text) (qs : List Text), i = (ps.filterMap member?).length ∧
      ∀ l', IsLiteral l' → splitItems (before ++ (l' ++ after)) = ps ++ (l' ++ a) :: qs ∧
        member? (l' ++ a) = some (valueIn l') := by
  have hpositive := (placedItems_bounds (List.mem_of_mem_filter (List.mem_of_getElem? hp))).1
  obtain ⟨ps, b, a, qs, hframe, hb, hps, hitems⟩ := placedItems_frame h
  obtain ⟨rest, hrest, hlater, hplaced⟩ := hitems l hl
  have hearlier : p ∉ ps := fun hmem => by
    have hbound := hps p hmem
    omega
  have hbehind : p ∉ rest := fun hmem => by
    have hbound := hlater p hmem
    omega
  have hmem : p ∈ ps ++ (before.length - b.length, b ++ (l ++ a)) :: rest :=
    hplaced ▸ List.mem_of_mem_filter (List.mem_of_getElem? hp)
  obtain rfl : p = (before.length - b.length, b ++ (l ++ a)) := by
    simpa [hearlier, hbehind] using hmem
  have hnil : b = [] := List.eq_nil_of_length_eq_zero (by dsimp only at hstart; omega)
  subst hnil
  have hvalue : ∀ l', IsLiteral l' → member? (l' ++ a) = some (valueIn l') := by
    intro l' hl'
    rw [member?, tokenize, tokensFrom_literal hl' hframe.last]
    rfl
  refine ⟨ps.map Prod.snd, a, qs, ?_, fun l' hl' => ⟨?_, hvalue l' hl'⟩⟩
  · -- the members before this one are those of the items before it
    rw [placedMembers, hplaced, List.filter_append, List.getElem?_append] at hp
    rw [List.filterMap_map, List.length_filterMap_eq_countP, List.countP_eq_length_filter]
    split at hp
    · exact absurd (List.mem_of_mem_filter (List.mem_of_getElem? hp)) hearlier
    · next hle =>
        rw [List.filter_cons, if_pos (by rw [List.nil_append, hvalue l hl]; rfl),
          List.getElem?_cons] at hp
        split at hp
        · next hzero => exact Nat.le_antisymm (Nat.sub_eq_zero_iff_le.1 hzero) (Nat.not_lt.1 hle)
        · exact absurd (List.mem_of_mem_filter (List.mem_of_getElem? hp)) hbehind
  · obtain ⟨rest', hrest', -, hplaced'⟩ := hitems l' hl'
    rw [← map_placedItems, hplaced', List.map_append, List.map_cons, hrest']
    rfl

theorem tokenize_apart (h : Surrounds b.length ts x us)
    (htokens : ∀ l, IsLiteral l →
      tokenize (b ++ (l ++ a)) = ts ++ x l :: us.map (Token.shift l.length))
    (hl : IsLiteral l) (hl' : IsLiteral l') :
    Apart b.length x l l' (tokenize (b ++ (l ++ a))) (tokenize (b ++ (l' ++ a))) := by
  rw [htokens l hl, htokens l' hl']
  exact h.apart l l'

/-- Another literal in a column leaves a column that compares with it. -/
theorem classify_apart (hx : Holder b.length x) (hl : IsLiteral l) (hl' : IsLiteral l')
    (h : Apart b.length x l l' (tokenize (b ++ (l ++ a))) (tokenize (b ++ (l' ++ a))))
    (hc : classify (b ++ (l ++ a)) = .column c) :
    ∃ d, classify (b ++ (l' ++ a)) = .column d ∧
      ColumnAbreast (Token.Apart b.length x l l') (Attribute.Apart x l l') (b ++ (l ++ a)) c d := by
  have hrel := classify_abreast (pairing_apart hx l l') (attributes_apart hx hl hl' a) h
  rw [hc] at hrel
  generalize hd : classify (b ++ (l' ++ a)) = k at hrel
  cases hrel with
  | column hcd => exact ⟨_, rfl, hcd⟩
  | key hk => cases hk

/-- Columns whose tokens differ in a literal have the same arguments, which stand in a group. -/
theorem arguments_apart {text : Text} {d : ColumnClause} {w : Text}
    (h : ColumnAbreast (Token.Apart b.length x l l') (Attribute.Apart x l l') text c d)
    (hx : (x l).lexeme = .literal w) : c.arguments = d.arguments := by
  obtain ⟨body, body', hbodies, hcargs, hdargs⟩ := h.arguments
  rw [hcargs, hdargs]
  cases hbodies with
  | none => rfl
  | some hgroups =>
      obtain ⟨g, g', hgg, hg, hg'⟩ := hgroups
      have hother : g ≠ x l := fun hsame => by
        rw [hsame, hx] at hg
        cases hg
      rw [hgg.lexeme_eq hother, hg'] at hg
      cases hg
      rfl

/-- A column whose attribute is read from a literal alone has another attribute in its place, and all
else is the same. -/
theorem attribute_apart (hframe : Frame b a) (hl : IsLiteral l) (hl' : IsLiteral l')
    (hc : classify (b ++ (l ++ a)) = .column c) {xs ys : List (Attribute × List Token)}
    {e : Attribute} {t : Token} {w : Text}
    (hfound : attributesOf (b ++ (l ++ a)) = xs ++ (e, [t]) :: ys) (ht : t.lexeme = .literal w)
    (hstart : t.start = b.length) :
    ∃ d z, classify (b ++ (l' ++ a)) = .column d ∧ c.name = d.name ∧ c.rawType = d.rawType ∧
      c.modifiers = d.modifiers ∧ c.arguments = d.arguments ∧
      c.Says (xs.map Prod.fst ++ e :: ys.map Prod.fst) ∧
      d.Says (xs.map Prod.fst ++ z :: ys.map Prod.fst) ∧
      (∀ v, e = .default v → z = .default (some (valueIn l'))) ∧
      ∀ v, e = .comment v → z = .comment (valueIn l') := by
  obtain ⟨ts, x, us, hs, htokens⟩ := tokenize_frame hframe
  obtain ⟨d, hd, hcd⟩ := classify_apart hs.holder hl hl' (tokenize_apart hs htokens hl hl') hc
  obtain ⟨htold, found, htold', hpairs⟩ := hcd.attributes
  have hne := hl.ne_nil
  -- the token of the attribute is the one that holds the literal
  have hentry : (e, [t]) ∈ attributesOf (b ++ (l ++ a)) :=
    hfound ▸ List.mem_append_right _ List.mem_cons_self
  have hmem : t ∈ tokenize (b ++ (l ++ a)) := attributesOf_subset hentry List.mem_cons_self
  have hstop := ((tokensFrom_sorted 0 0 _).1 t hmem).2.1
  obtain rfl : t = x l :=
    hs.eq_holder hne (htokens l hl ▸ hmem) (Nat.le_of_eq hstart) (hstart ▸ hstop)
  have hvalue : (x l').lexeme = .literal (valueIn l') := by
    obtain ⟨hx, -, -⟩ := hs
    cases hx with
    | literal => rfl
    | group => cases ht
  -- and no other attribute takes it
  have hnodup : ((xs ++ (e, [x l]) :: ys).flatMap Prod.snd).Nodup := by
    rw [← hfound]
    obtain ⟨name, rawType, rest, hhead, -, -⟩ := exists_columnHead? hc
    exact (attributesOf_sublist hhead).nodup ((readGroup_suffix rest).sublist.nodup
      ((columnHead?_suffix hhead).sublist.nodup (tokenize_nodup _)))
  rw [hfound] at hpairs htold
  obtain ⟨z, rfl, hz⟩ := forall₂_around hpairs fun f hf z hz =>
    hz.same (not_mem_others hnodup List.mem_cons_self f hf)
  rw [List.map_append, List.map_cons] at htold
  refine ⟨d, z, hd, hcd.name, hcd.rawType, hcd.modifiers, arguments_apart hcd ht, htold, htold',
    ?_, ?_⟩
  · rintro v rfl
    exact hz.default rfl v rfl _ hvalue
  · rintro v rfl
    exact hz.comment rfl v rfl _ hvalue

/-- With another last default a column says the same but for its default value. -/
theorem ColumnClause.Says.other_default {d : ColumnClause} {xs ys : List Attribute}
    {v v' : Option Text} (hc : c.Says (xs ++ .default v :: ys))
    (hd : d.Says (xs ++ .default v' :: ys)) (hys : ys.filterMap Attribute.default? = []) :
    d.defaultValue = v' ∧ d.comment = c.comment ∧ d.references = c.references := by
  rw [hd.defaultValue, hd.comment, hc.comment, hd.references, hc.references]
  simp [List.filterMap_cons, Attribute.default?, Attribute.comment?, Attribute.reference?, hys]

/-- With another last comment a column says the same but for its comment. -/
theorem ColumnClause.Says.other_comment {d : ColumnClause} {xs ys : List Attribute}
    {v v' : Text} (hc : c.Says (xs ++ .comment v :: ys))
    (hd : d.Says (xs ++ .comment v' :: ys)) (hys : ys.filterMap Attribute.comment? = []) :
    d.defaultValue = c.defaultValue ∧ d.comment = some v' ∧ d.references = c.references := by
  rw [hd.defaultValue, hc.defaultValue, hd.comment, hd.references, hc.references]
  simp [List.filterMap_cons, Attribute.default?, Attribute.comment?, Attribute.reference?, hys]

theorem rewritten_default (hframe : Frame b a) (hl : IsLiteral l) (hl' : IsLiteral l')
    (hc : classify (b ++ (l ++ a)) = .column c)
    (hstart : literalStart? .default (b ++ (l ++ a)) = some b.length) :
    ∃ d, classify (b ++ (l' ++ a)) = .column d ∧ c.Rewritten (valueIn l') .default d := by
  obtain ⟨xs, e, ys, t, w, v, hfound, he, hys, ht, hstart⟩ := exists_attribute hstart
  obtain ⟨d, z, hd, hname, hraw, hmodifiers, harguments, htold, htold', hz, -⟩ :=
    attribute_apart hframe hl hl' hc hfound ht hstart
  cases e <;> cases he
  obtain rfl := hz _ rfl
  obtain ⟨hvalue, hcomment, hkey⟩ := htold.other_default htold' (by
    rw [List.filterMap_map]
    exact List.filterMap_eq_nil_iff.2 hys)
  have hsame : d = { c with defaultValue := some (valueIn l') } := by
    cases d
    simp only [ColumnClause.mk.injEq]
    exact ⟨hname.symm, hraw.symm, harguments.symm, hmodifiers.symm, hvalue, hcomment, hkey⟩
  rw [hsame] at hd
  exact ⟨_, hd, .default⟩

theorem rewritten_comment (hframe : Frame b a) (hl : IsLiteral l) (hl' : IsLiteral l')
    (hc : classify (b ++ (l ++ a)) = .column c)
    (hstart : literalStart? .comment (b ++ (l ++ a)) = some b.length) :
    ∃ d, classify (b ++ (l' ++ a)) = .column d ∧ c.Rewritten (valueIn l') .comment d := by
  obtain ⟨xs, e, ys, t, w, v, hfound, he, hys, ht, hstart⟩ := exists_attribute hstart
  obtain ⟨d, z, hd, hname, hraw, hmodifiers, harguments, htold, htold', -, hz⟩ :=
    attribute_apart hframe hl hl' hc hfound ht hstart
  cases e <;> cases he
  obtain rfl := hz _ rfl
  obtain ⟨hvalue, hcomment, hkey⟩ := htold.other_comment htold' (by
    rw [List.filterMap_map]
    exact List.filterMap_eq_nil_iff.2 hys)
  have hsame : d = { c with comment := some (valueIn l') } := by
    cases d
    simp only [ColumnClause.mk.injEq]
    exact ⟨hname.symm, hraw.symm, harguments.symm, hmodifiers.symm, hvalue, hcomment, hkey⟩
  rw [hsame] at hd
  exact ⟨_, hd, .comment⟩

/-- A group that holds a literal has it in a frame. -/
theorem Holder.of_group {n : Nat} (h : Holder n x) {body : Text} (hg : (x l).lexeme = .group body) :
    ∃ d e : Text, Frame d e ∧ (x l).start + 1 + d.length = n ∧
      ∀ l, (x l).lexeme = .group (d ++ (l ++ e)) := by
  cases h with
  | literal => cases hg
  | @group d e _ _ hstart hframe => exact ⟨d, e, hframe, hstart, fun _ => rfl⟩

/-- The attributes of a column are read from the tokens after the group of its arguments. -/
theorem not_mem_attributesOf {item name rawType body : Text} {g : Token} {rest : List Token}
    (hhead : columnHead? (tokenize item) = some (name, rawType, g :: rest))
    (hg : g.lexeme = .group body) : ∀ f ∈ attributesOf item, g ∉ f.2 := by
  intro f hf hgf
  have hrest := (attributesOf_sublist hhead).subset (List.mem_flatMap.2 ⟨f, hf, hgf⟩)
  have hnodup := (columnHead?_suffix hhead).sublist.nodup (tokenize_nodup _)
  rw [readGroup, hg] at hrest
  exact (List.nodup_cons.1 hnodup).1 hrest

theorem rewritten_member (hframe : Frame b a) (hl : IsLiteral l) (hl' : IsLiteral l')
    (hc : classify (b ++ (l ++ a)) = .column c) {i : Nat}
    (hstart : literalStart? (.member i) (b ++ (l ++ a)) = some b.length) :
    ∃ d, classify (b ++ (l' ++ a)) = .column d ∧ c.Rewritten (valueIn l') (.member i) d := by
  obtain ⟨ts, x, us, hs, htokens⟩ := tokenize_frame hframe
  have hlists := tokenize_apart hs htokens hl hl'
  have hne := hl.ne_nil
  obtain ⟨d, hd, hcd⟩ := classify_apart hs.holder hl hl' hlists hc
  obtain ⟨htold, found, htold', hpairs⟩ := hcd.attributes
  obtain ⟨name, rawType, g, rest, body, p, hhead, htype, hg, hp, hplace⟩ := exists_member hstart
  -- the group after the type holds the literal
  have hmem : g ∈ tokenize (b ++ (l ++ a)) := (columnHead?_suffix hhead).mem List.mem_cons_self
  have hstop := group_stop hmem hg
  have hbounds := placedItems_bounds (List.mem_of_mem_filter (List.mem_of_getElem? hp))
  obtain rfl : g = x l := hs.eq_holder hne (htokens l hl ▸ hmem) (by omega) (by omega)
  obtain ⟨before, after, hinner, hbefore, hgroups⟩ := hs.holder.of_group hg
  rw [hgroups, Lexeme.group.injEq] at hg
  subst hg
  obtain ⟨ps, a', qs, rfl, hitems⟩ := placedMembers_frame hinner hl hp (by omega)
  -- so do the arguments of both columns
  obtain ⟨name₁, rawType₁, rest₁, hhead₁, hraw₁, hcargs⟩ := exists_columnHead? hc
  cases hhead.symm.trans hhead₁
  obtain ⟨name₂, rawType₂, rest₂, hhead₂, -, hdargs⟩ := exists_columnHead? hd
  have hrel := columnHead?_abreast (pairing_apart hs.holder l l') hlists
  rw [hhead, hhead₂] at hrel
  cases hrel with
  | some hrel =>
  obtain ⟨-, -, hrest⟩ := hrel
  obtain ⟨u, us', rfl, hu, -⟩ := hrest.cons
  obtain rfl := hu.eq_of_holder hs.holder hne
  have hbody : ∀ (l : Text) ts, (readGroup (x l :: ts)).1.getD [] = before ++ (l ++ after) := by
    intro l ts
    rw [readGroup, hgroups]
    rfl
  obtain ⟨hsplit, hmember⟩ := hitems l hl
  obtain ⟨hsplit', hmember'⟩ := hitems l' hl'
  rw [hbody, hsplit] at hcargs
  rw [hbody, hsplit'] at hdargs
  -- and the attributes are the same
  obtain rfl := forall₂_map_of hpairs fun f hf z hz =>
    hz.same (not_mem_attributesOf hhead (hgroups l) f hf)
  have hsame : d = { c with arguments := ps ++ (l' ++ a') :: qs } := by
    cases d
    simp only [ColumnClause.mk.injEq]
    exact ⟨hcd.name.symm, hcd.rawType.symm, hdargs, hcd.modifiers.symm,
      htold'.defaultValue.trans htold.defaultValue.symm, htold'.comment.trans htold.comment.symm,
      htold'.references.trans htold.references.symm⟩
  rw [hsame] at hd
  exact ⟨_, hd, .member (hraw₁ ▸ htype) hcargs hmember hmember'⟩

/-- In an item that declares a column, another literal in the place of a use is another text in the
place of that use. -/
theorem column_apart {use : LiteralUse} (hframe : Frame b a) (hl : IsLiteral l) (hl' : IsLiteral l')
    (hc : classify (b ++ (l ++ a)) = .column c)
    (hstart : literalStart? use (b ++ (l ++ a)) = some b.length) :
    ∃ d, classify (b ++ (l' ++ a)) = .column d ∧ c.Rewritten (valueIn l') use d := by
  cases use with
  | default => exact rewritten_default hframe hl hl' hc hstart
  | comment => exact rewritten_comment hframe hl hl' hc hstart
  | member i => exact rewritten_member hframe hl hl' hc hstart

end Frames

/-! ## Columns -/

section Columns

variable {c d : ColumnClause} {v : Text} {use : LiteralUse}

theorem ColumnClause.Rewritten.alike (h : c.Rewritten v use d) : c.Alike d := by
  cases h with
  | default => exact ⟨rfl, rfl, rfl, rfl, rfl⟩
  | comment => exact ⟨rfl, rfl, rfl, rfl, rfl⟩
  | member htype =>
      refine ⟨rfl, rfl, rfl, rfl, ?_⟩
      simp only [ColumnClause.sizes]
      obtain htype | htype := htype <;> rw [htype] <;> rfl

theorem ColumnClause.memberValues_eq (htype : typeOf c.rawType = .enum ∨ typeOf c.rawType = .set) :
    c.memberValues = .list ((c.arguments.filterMap member?).map .str) := by
  rw [ColumnClause.memberValues, ← members_eq]
  obtain htype | htype := htype <;> rw [htype]

/-- Of two columns with one outline that are declared with one text and with another one in its
place, the second one is the first one with the other text, and reads so. -/
theorem ColumnClause.Rewritten.columns (h : c.Rewritten v use d) {item item' : Text}
    {column column' : Column} (hc : classify item = .column c) (hd : classify item' = .column d)
    (hcolumn : DeclaredBy item column) (hcolumn' : DeclaredBy item' column')
    (houtline : column.outline = column'.outline) :
    column' = use.write v column ∧ use.read column' = some (.str v) := by
  obtain ⟨c, hc', hdefault, hcomment, hmembers⟩ := hcolumn
  cases hc.symm.trans hc'
  obtain ⟨d, hd', hdefault', hcomment', hmembers'⟩ := hcolumn'
  cases hd.symm.trans hd'
  have hsame : column'.outline = (use.write v column).outline := by
    rw [← houtline, LiteralUse.write_outline]
  cases h with
  | default =>
      refine ⟨Column.eq_of_outline hsame hdefault' (hcomment'.trans hcomment.symm)
        (hmembers'.trans hmembers.symm), ?_⟩
      exact congrArg some hdefault'
  | comment =>
      refine ⟨Column.eq_of_outline hsame (hdefault'.trans hdefault.symm) hcomment'
        (hmembers'.trans hmembers.symm), ?_⟩
      exact congrArg some hcomment'
  | @member ps qs p q u htype harguments hp hq =>
      replace hmembers := hmembers.trans (ColumnClause.memberValues_eq htype)
      replace hmembers' := hmembers'.trans (ColumnClause.memberValues_eq htype)
      rw [harguments] at hmembers
      simp only [List.filterMap_append, List.filterMap_cons, hp, hq, List.map_append, List.map_cons]
        at hmembers hmembers'
      have hlength : (ps.filterMap member?).length =
          ((ps.filterMap member?).map Value.str).length := (List.length_map _).symm
      have hwrite : (LiteralUse.member (ps.filterMap member?).length).write v column =
          { column with enumValues := column'.enumValues } := by
        simp only [LiteralUse.write, hmembers, hmembers', hlength,
          List.set_append_right _ _ (Nat.le_refl _), Nat.sub_self, List.set_cons_zero]
      have hread : (LiteralUse.member (ps.filterMap member?).length).read column' =
          some (.str v) := by
        simp only [LiteralUse.read, hmembers', hlength, List.getElem?_append_right (Nat.le_refl _),
          Nat.sub_self, List.getElem?_cons_zero]
      rw [hwrite] at hsame ⊢
      exact ⟨Column.eq_of_outline hsame (hdefault'.trans hdefault.symm)
        (hcomment'.trans hcomment.symm) rfl, hread⟩

end Columns

end Sql

end SchemaDesk
