import SchemaDesk.Proofs.Sql.Respaced

/-!
# Splitting items again

The items of a text are split off at the commas that stand in no parentheses and no quotes.  Where a
comma separates, the scanner is back where it began, so a piece reads the same on its own as in the
text, and the blanks that are trimmed from it do not matter (`EndsPiece.trim`).  Only the last piece
may leave parentheses or quotes open.  Hence an item is its own only item, and the items with commas
between them are split into the same items again (`splitItems_stable`).
-/

namespace SchemaDesk.Sql

/-! ## The state after a text -/

/-- Where the splitting of a text into items stands after it, in parentheses and quotes, if no comma
separates in it. -/
def itemState? : Nat → Quoting → Text → Option (Nat × Quoting)
  | depth, quoting, [] => some (depth, quoting)
  | depth, quoting, c :: rest =>
      if quoting = .bare ∧ c = ',' ∧ depth = 0 then none
      else itemState? (if quoting = .bare then depthAfter depth c else depth) (quoting.next c) rest

/-- A text in which no comma separates. -/
def IsPiece (t : Text) : Prop :=
  (itemState? 0 .bare t).isSome

/-- A text after which a comma separates, and in which none does. -/
def EndsPiece (t : Text) : Prop :=
  itemState? 0 .bare t = some (0, .bare)

/-- Texts that stand as they are between separating commas. -/
structure Pieces (ts : List Text) : Prop where
  whole : ∀ t ∈ ts, IsPiece t
  ended : ts.Pairwise fun t _ => EndsPiece t

section States

variable {depth depth' : Nat} {quoting quoting' : Quoting} {c : CodePoint} {t u : Text}

theorem itemState?_cons (h : ¬(quoting = .bare ∧ c = ',' ∧ depth = 0)) (t : Text) :
    itemState? depth quoting (c :: t) =
      itemState? (if quoting = .bare then depthAfter depth c else depth) (quoting.next c) t := by
  rw [itemState?, if_neg h]

theorem itemState?_append (depth : Nat) (quoting : Quoting) (t u : Text) :
    itemState? depth quoting (t ++ u) =
      (itemState? depth quoting t).bind fun state => itemState? state.1 state.2 u := by
  induction t generalizing depth quoting with
  | nil => rfl
  | cons c t ih =>
      by_cases hcomma : quoting = .bare ∧ c = ',' ∧ depth = 0
      · rw [List.cons_append, itemState?, itemState?, if_pos hcomma, if_pos hcomma]
        rfl
      · rw [List.cons_append, itemState?_cons hcomma, itemState?_cons hcomma, ih]

/-- A text without a separating comma belongs to the piece that is open. -/
theorem piecesFrom_state (h : itemState? depth quoting t = some (depth', quoting')) (u : Text) :
    piecesFrom depth quoting (t ++ u) =
      (t ++ (piecesFrom depth' quoting' u).1, (piecesFrom depth' quoting' u).2) := by
  induction t generalizing depth quoting with
  | nil =>
      cases h
      rfl
  | cons c t ih =>
      by_cases hcomma : quoting = .bare ∧ c = ',' ∧ depth = 0
      · rw [itemState?, if_pos hcomma] at h
        cases h
      · rw [itemState?_cons hcomma] at h
        rw [List.cons_append, piecesFrom_cons hcomma, ih h]
        rfl

/-- A blank leaves a scanner outside quotes where it is. -/
theorem itemState?_blank (hblank : c.is Text.isBlank = true) (depth : Nat) (t : Text) :
    itemState? depth .bare (c :: t) = itemState? depth .bare t := by
  have hsolid := isSolidChar_of_blank hblank
  have hnext := next_of_isSolidChar hsolid
  simp only [isSolidChar, isPlain, Bool.and_eq_true, decide_eq_true_eq] at hsolid
  obtain ⟨⟨⟨⟨-, -⟩, hopen⟩, hclose⟩, hcomma⟩ := hsolid
  rw [itemState?_cons (fun h => hcomma h.2.1), if_pos rfl, depthAfter, if_neg hopen,
    if_neg hclose, hnext]

theorem itemState?_blanks (hblank : Text.isBlankText t = true) (depth : Nat) (u : Text) :
    itemState? depth .bare (t ++ u) = itemState? depth .bare u := by
  induction t with
  | nil => rfl
  | cons c t ih =>
      rw [Text.isBlankText, List.all_cons, Bool.and_eq_true] at hblank
      rw [List.cons_append, itemState?_blank hblank.1, ih hblank.2]

theorem proper_state (h : itemState? depth quoting t = some (depth', quoting'))
    (hquoting : quoting.Proper) : quoting'.Proper := by
  induction t generalizing depth quoting with
  | nil =>
      cases h
      exact hquoting
  | cons c t ih =>
      by_cases hcomma : quoting = .bare ∧ c = ',' ∧ depth = 0
      · rw [itemState?, if_pos hcomma] at h
        cases h
      · rw [itemState?_cons hcomma] at h
        exact ih h (hquoting.next c)

/-- Blanks do not lead out of quotes or parentheses. -/
theorem eq_bare_of_blanks (hblank : Text.isBlankText t = true) (hquoting : quoting.Proper)
    (h : itemState? depth quoting t = some (depth', .bare)) :
    quoting = .bare ∧ depth = depth' := by
  induction t generalizing depth quoting with
  | nil =>
      cases h
      exact ⟨rfl, rfl⟩
  | cons c t ih =>
      rw [Text.isBlankText, List.all_cons, Bool.and_eq_true] at hblank
      by_cases hbare : quoting = .bare
      · subst hbare
        rw [itemState?_blank hblank.1] at h
        exact ih hblank.2 hquoting h
      · rw [itemState?_cons (fun hcomma => hbare hcomma.1), if_neg hbare] at h
        have hnext := (ih hblank.2 (hquoting.next c) h).1
        have hvisible := Respaced.isBlank_of_next hquoting (fun h => absurd h hbare) hnext
        rw [hblank.1] at hvisible
        cases hvisible

end States

/-! ## Pieces -/

/-- A text has no separating comma if it has none when it is trimmed. -/
theorem IsPiece.trim {t : Text} (h : IsPiece t) : IsPiece t.trim := by
  obtain ⟨lead, trail, hlead, -, ht⟩ := t.exists_surrounded
  rw [ht, IsPiece, itemState?_blanks hlead, itemState?_append] at h
  exact Option.isSome_of_isSome_bind h

theorem EndsPiece.trim {t : Text} (h : EndsPiece t) : EndsPiece t.trim := by
  obtain ⟨lead, trail, hlead, htrail, ht⟩ := t.exists_surrounded
  rw [ht, EndsPiece, itemState?_blanks hlead, itemState?_append, Option.bind_eq_some_iff] at h
  obtain ⟨⟨depth, quoting⟩, hstate, hend⟩ := h
  obtain ⟨rfl, rfl⟩ := eq_bare_of_blanks htrail (proper_state hstate nofun) hend
  exact hstate

/-- The pieces of a text are pieces, whatever it begins with. -/
theorem pieces_piecesFrom {depth : Nat} {quoting : Quoting} (lead : Text)
    (h : itemState? 0 .bare lead = some (depth, quoting)) (t : Text) :
    Pieces ((lead ++ (piecesFrom depth quoting t).1) :: (piecesFrom depth quoting t).2) := by
  induction t generalizing depth quoting lead with
  | nil =>
      have hwhole : IsPiece lead := by rw [IsPiece, h]; rfl
      simpa [piecesFrom] using Pieces.mk (by simpa using hwhole) (List.pairwise_singleton _ _)
  | cons c t ih =>
      by_cases hcomma : quoting = .bare ∧ c = ',' ∧ depth = 0
      · obtain ⟨rfl, rfl, rfl⟩ := hcomma
        have hrest := ih [] rfl
        have hwhole : IsPiece lead := by rw [IsPiece, h]; rfl
        rw [piecesFrom, if_pos ⟨rfl, rfl, rfl⟩, List.append_nil]
        exact ⟨List.forall_mem_cons.2 ⟨hwhole, hrest.whole⟩,
          List.pairwise_cons.2 ⟨fun _ _ => h, hrest.ended⟩⟩
      · have hlead : itemState? 0 .bare (lead ++ [c]) =
            some (if quoting = .bare then depthAfter depth c else depth, quoting.next c) := by
          rw [itemState?_append, h, Option.bind_some, itemState?_cons hcomma]
          rfl
        have hrest := ih _ hlead
        rw [List.append_assoc, List.singleton_append] at hrest
        rwa [piecesFrom_cons hcomma]

/-- Pieces with commas between them are told apart. -/
theorem Pieces.piecesFrom_join {t : Text} {ts : List Text} (h : Pieces (t :: ts)) :
    piecesFrom 0 .bare (Text.join "," (t :: ts)) = (t, ts) := by
  induction ts generalizing t with
  | nil =>
      obtain ⟨state, hstate⟩ := Option.isSome_iff_exists.1 (h.whole t List.mem_cons_self)
      have hpieces := piecesFrom_state hstate []
      rw [List.append_nil] at hpieces
      rw [Text.join_cons, List.flatMap_nil, List.append_nil, hpieces, piecesFrom, List.append_nil]
  | cons u us ih =>
      -- the comma after the first piece separates, and the rest is joined in the same way
      have hfirst : EndsPiece t := (List.pairwise_cons.1 h.ended).1 u List.mem_cons_self
      have hlater : Pieces (u :: us) := ⟨fun v hv => h.whole v (List.mem_cons_of_mem _ hv),
        (List.pairwise_cons.1 h.ended).2⟩
      have hjoin : Text.join "," (t :: u :: us) = t ++ .char ',' :: Text.join "," (u :: us) := by
        rw [Text.join_cons, Text.join_cons]
        rfl
      rw [hjoin, piecesFrom_state hfirst, piecesFrom, if_pos ⟨rfl, rfl, rfl⟩, ih hlater,
        List.append_nil]

/-- Trimmed pieces with commas between them are the items. -/
theorem Pieces.splitItems_join {ts : List Text} (h : Pieces ts) (htrimmed : ∀ t ∈ ts, t.Trimmed) :
    splitItems (Text.join "," ts) = ts := by
  cases ts with
  | nil => rfl
  | cons t ts =>
      have htrim : (t :: ts).map Text.trim = t :: ts :=
        (List.map_congr_left fun u hu => (htrimmed u hu).trim).trans (List.map_id _)
      rw [splitItems, h.piecesFrom_join]
      simp only [htrim]
      exact List.filter_eq_self.2 fun u hu => decide_eq_true (htrimmed u hu).ne_nil

/-- The items of a text are pieces of their own. -/
theorem pieces_splitItems (body : Text) : Pieces (splitItems body) := by
  obtain ⟨hwhole, hended⟩ := pieces_piecesFrom [] rfl body
  refine ⟨fun item hitem => ?_, ?_⟩
  · obtain ⟨piece, hpiece, rfl⟩ := List.mem_map.1 (List.mem_of_mem_filter hitem)
    exact (hwhole piece hpiece).trim
  · exact (List.pairwise_map.2 (hended.imp EndsPiece.trim)).filter _

/-- Every item of a text is trimmed and is its own only item, and the items with commas between them
are split into the same items again. -/
theorem splitItems_stable (body : Text) :
    (∀ item ∈ splitItems body, item ≠ [] ∧ item.Trimmed ∧ splitItems item = [item]) ∧
      splitItems (Text.join "," (splitItems body)) = splitItems body := by
  have htrimmed : ∀ item ∈ splitItems body, item.Trimmed := by
    intro item hitem
    obtain ⟨hmem, hne⟩ := List.mem_filter.1 hitem
    obtain ⟨piece, -, rfl⟩ := List.mem_map.1 hmem
    exact Text.trimmed_trim (of_decide_eq_true hne)
  have hpieces := pieces_splitItems body
  refine ⟨fun item hitem => ⟨(htrimmed item hitem).ne_nil, htrimmed item hitem, ?_⟩,
    hpieces.splitItems_join htrimmed⟩
  -- an item alone is joined of one piece
  have halone : Pieces [item] :=
    ⟨by simpa using hpieces.whole item hitem, List.pairwise_singleton _ _⟩
  have hsplit := halone.splitItems_join (by simpa using htrimmed item hitem)
  rwa [Text.join_cons, List.flatMap_nil, List.append_nil] at hsplit

end SchemaDesk.Sql
