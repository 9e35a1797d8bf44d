import Mathlib.Algebra.GroupWithZero.Nat
import SchemaDesk.Proofs.Sql.Around

/-!
# Items and where they stand

The items of a text are listed with the positions where they begin.  A closed string literal that
stands on its own is part of one item, and the other items do not depend on it, but for where they
stand (`placedItems_frame`).  The item holds the literal in a smaller frame.
-/

namespace SchemaDesk.Sql

/-- Pieces of a text without the blanks at their ends, each with the position where it begins.  A
comma stands after each piece. -/
def placed (position : Nat) : List Text → List (Nat × Text)
  | [] => []
  | piece :: later =>
      (position + (piece.length - piece.trimLeft.length), piece.trim) ::
        placed (position + piece.length + 1) later

/-- The items of a text, each with the position where it begins. -/
def placedItems (body : Text) : List (Nat × Text) :=
  (placed 0 ((piecesFrom 0 .bare body).1 :: (piecesFrom 0 .bare body).2)).filter (·.2 ≠ [])

theorem map_placed (position : Nat) (pieces : List Text) :
    (placed position pieces).map Prod.snd = pieces.map Text.trim := by
  induction pieces generalizing position with
  | nil => rfl
  | cons piece pieces ih => rw [placed, List.map_cons, List.map_cons, ih]

/-- Where items stand makes no difference to what they are. -/
theorem map_placedItems (body : Text) : (placedItems body).map Prod.snd = splitItems body := by
  rw [placedItems, splitItems]
  simp only
  rw [← map_placed 0, List.filter_map]
  rfl

/-- How far pieces reach, with a comma after each of them. -/
def reach (pieces : List Text) : Nat :=
  (pieces.map fun piece => piece.length + 1).sum

theorem placed_append (position : Nat) (ps qs : List Text) :
    placed position (ps ++ qs) = placed position ps ++ placed (position + reach ps) qs := by
  induction ps generalizing position with
  | nil => rfl
  | cons p ps ih =>
      rw [List.cons_append, placed, placed, ih, List.cons_append]
      congr 3
      simp only [reach, List.map_cons, List.sum_cons]
      omega

theorem trim_length_le (t : Text) : t.trim.length ≤ t.trimLeft.length := by
  rw [Text.trim, Text.trimRight, List.length_reverse]
  exact Nat.le_trans (List.dropWhile_suffix _).length_le (Nat.le_of_eq List.length_reverse)

/-- Each piece stands where it is said to. -/
theorem placed_bounds {position : Nat} {pieces : List Text} {i : Nat × Text}
    (h : i ∈ placed position pieces) :
    position ≤ i.1 ∧ i.1 + i.2.length + 1 ≤ position + reach pieces := by
  induction pieces generalizing position with
  | nil => cases h
  | cons piece pieces ih =>
      have hreach : reach (piece :: pieces) = piece.length + 1 + reach pieces := rfl
      rw [hreach]
      rw [placed] at h
      rcases List.mem_cons.1 h with rfl | h
      · have hleft := (List.dropWhile_suffix (l := piece) (·.is Text.isBlank)).length_le
        have htrim := trim_length_le piece
        rw [Text.trimLeft] at htrim ⊢
        dsimp only
        omega
      · have hlater := ih h
        omega

/-- The pieces of a text reach as far as the text, with a comma after it. -/
theorem reach_pieces (depth : Nat) (quoting : Quoting) (t : Text) :
    reach ((piecesFrom depth quoting t).1 :: (piecesFrom depth quoting t).2) = t.length + 1 := by
  have hcons : ∀ (p : Text) ps, reach (p :: ps) = p.length + 1 + reach ps := fun _ _ => rfl
  induction t generalizing depth quoting with
  | nil => rfl
  | cons c t ih =>
      by_cases hcomma : quoting = .bare ∧ c = ',' ∧ depth = 0
      · rw [piecesFrom, if_pos hcomma, hcons]
        have hrest := ih 0 .bare
        simp only [List.length_nil, List.length_cons]
        omega
      · have hrest := ih (if quoting = .bare then depthAfter depth c else depth) (quoting.next c)
        rw [piecesFrom_cons hcomma]
        rw [hcons] at hrest ⊢
        simp only [List.length_cons]
        omega

/-- An item is no empty text, and stands in the text that has it. -/
theorem placedItems_bounds {body : Text} {i : Nat × Text} (h : i ∈ placedItems body) :
    0 < i.2.length ∧ i.1 + i.2.length ≤ body.length := by
  rw [placedItems, List.mem_filter, decide_eq_true_eq] at h
  have hbounds := placed_bounds h.1
  rw [reach_pieces] at hbounds
  exact ⟨List.length_pos_iff.2 h.2, by omega⟩

section Items

variable {before after : Text}

theorem piecesFrom_prefix (depth : Nat) (quoting : Quoting) (t : Text) :
    (piecesFrom depth quoting t).1 <+: t := by
  induction t generalizing depth quoting with
  | nil => exact List.prefix_refl _
  | cons c t ih =>
      by_cases hcomma : quoting = .bare ∧ c = ',' ∧ depth = 0
      · rw [piecesFrom, if_pos hcomma]
        exact List.nil_prefix
      · rw [piecesFrom_cons hcomma]
        exact List.cons_prefix_cons.2 ⟨rfl, ih _ _⟩

/-! ## Around a solid text -/

/-- Around a solid text the pieces are the same whichever text it is, and one piece holds it. -/
theorem piecesFrom_frame (depth : Nat) {quoting : Quoting} (h : quoting.after before = .bare)
    (after : Text) :
    ∃ (ps : List Text) (b a : Text) (qs : List Text), reach ps + b.length = before.length ∧
      b <:+ before ∧ a <+: after ∧ (if ps = [] then quoting else .bare).after b = .bare ∧
      ∀ l, Solid l →
        (piecesFrom depth quoting (before ++ (l ++ after))).1 ::
            (piecesFrom depth quoting (before ++ (l ++ after))).2 =
          ps ++ (b ++ (l ++ a)) :: qs := by
  induction before generalizing depth quoting with
  | nil =>
      obtain rfl : quoting = .bare := h
      refine ⟨[], [], (piecesFrom depth .bare after).1, (piecesFrom depth .bare after).2, rfl,
        List.suffix_refl _, piecesFrom_prefix _ _ _, rfl, fun l hl => ?_⟩
      rw [List.nil_append, hl.whole]
      rfl
  | cons c before ih =>
      by_cases hcomma : quoting = .bare ∧ c = ',' ∧ depth = 0
      · -- the comma ends a piece before the one that holds the text
        obtain ⟨rfl, rfl, rfl⟩ := hcomma
        have hbare : Quoting.bare.after before = .bare := h
        obtain ⟨ps, b, a, qs, hreach, hb, ha, hout, hpieces⟩ := ih 0 hbare
        refine ⟨[] :: ps, b, a, qs, ?_, hb.trans (List.suffix_cons _ _), ha, ?_, fun l hl => ?_⟩
        · have hcons : reach ([] :: ps) = 0 + 1 + reach ps := rfl
          rw [hcons, List.length_cons]
          omega
        · rw [if_neg (List.cons_ne_nil _ _)]
          split at hout <;> exact hout
        · simp only [List.cons_append, piecesFrom, and_self, if_true]
          rw [hpieces l hl]
      · obtain ⟨ps, b, a, qs, hreach, hb, ha, hout, hpieces⟩ :=
          ih (if quoting = .bare then depthAfter depth c else depth) h
        -- the character belongs to the first piece, which may be the one that holds the text
        cases ps with
        | nil =>
            refine ⟨[], c :: b, a, qs, ?_, ?_, ha, hout, fun l hl => ?_⟩
            · simp only [reach, List.map_nil, List.sum_nil, List.length_cons] at hreach ⊢
              omega
            · have hlength : b.length = before.length := by
                simpa [reach] using hreach
              obtain rfl := hb.eq_of_length hlength
              exact List.suffix_refl _
            · have hsplit := hpieces l hl
              rw [List.nil_append, List.cons.injEq] at hsplit
              rw [List.nil_append, List.cons_append, List.cons_append, piecesFrom_cons hcomma,
                hsplit.1, hsplit.2]
        | cons p ps =>
            refine ⟨(c :: p) :: ps, b, a, qs, ?_, hb.trans (List.suffix_cons _ _), ha, hout,
              fun l hl => ?_⟩
            · have hcons : ∀ p : Text, reach (p :: ps) = p.length + 1 + reach ps := fun _ => rfl
              rw [hcons] at hreach ⊢
              rw [List.length_cons, List.length_cons]
              omega
            · have hsplit := hpieces l hl
              rw [List.cons_append, List.cons.injEq] at hsplit
              rw [List.cons_append, piecesFrom_cons hcomma, hsplit.1, hsplit.2]
              rfl

theorem IsLiteral.last {l : Text} (h : IsLiteral l) : l.getLast? = some (.char '\'') := by
  rw [h.eq_cons, List.getLast?_cons, getLast?_of_closed h.closed h.whole]
  rfl

theorem IsLiteral.trimmed {l : Text} (h : IsLiteral l) : l.Trimmed :=
  ⟨⟨_, h.first, by decide⟩, ⟨_, h.last, by decide⟩⟩

theorem after_trimLeft (t : Text) : Quoting.bare.after t.trimLeft = Quoting.bare.after t := by
  induction t with
  | nil => rfl
  | cons c t ih =>
      rw [Text.trimLeft, List.dropWhile_cons]
      split
      · next hblank =>
          rw [Quoting.after_cons, next_of_isSolidChar (isSolidChar_of_blank hblank), ← ih]
          rfl
      · rfl

/-- A frame may be made smaller from both sides. -/
theorem Frame.inside (h : Frame before after) {b a : Text} (hb : b <:+ before) (ha : a <+: after)
    (hout : Quoting.bare.after b = .bare) : Frame b a := by
  refine ⟨hout, fun hmem => h.plain (hb.mem hmem), fun hfirst => h.first ?_, fun hlast => h.last ?_⟩
  · obtain ⟨u, rfl⟩ := hb
    rw [List.getLast?_append, hfirst, Option.some_or]
  · obtain ⟨u, rfl⟩ := ha
    rw [List.head?_append, hlast, Option.some_or]

/-- Around a literal the items are the same whichever literal it is, and one item holds it. -/
theorem placedItems_frame (h : Frame before after) :
    ∃ (ps : List (Nat × Text)) (b a : Text) (qs : List Text), Frame b a ∧
      b.length ≤ before.length ∧ (∀ i ∈ ps, i.1 + i.2.length ≤ before.length) ∧
      ∀ l, IsLiteral l → ∃ rest, rest.map Prod.snd = qs ∧ (∀ i ∈ rest, before.length < i.1) ∧
        placedItems (before ++ (l ++ after)) =
          ps ++ (before.length - b.length, b ++ (l ++ a)) :: rest := by
  obtain ⟨ps, b, a, qs, hreach, hb, ha, hout, hpieces⟩ := piecesFrom_frame 0 h.outside after
  have hbare : Quoting.bare.after b = .bare := by
    split at hout <;> exact hout
  have hleft := List.dropWhile_suffix (l := b) (·.is Text.isBlank)
  have hright := a.trimRight_isPrefix
  refine ⟨(placed 0 ps).filter (·.2 ≠ []), b.trimLeft, a.trimRight,
    (qs.map Text.trim).filter (· ≠ []), ?_, ?_, fun i hi => ?_, fun l hl => ?_⟩
  · exact h.inside (hleft.trans hb) (hright.trans ha) ((after_trimLeft b).trans hbare)
  · exact (hleft.trans hb).length_le
  · have hbounds := placed_bounds (List.mem_of_mem_filter hi)
    omega
  · refine ⟨(placed (reach ps + (b ++ (l ++ a)).length + 1) qs).filter (·.2 ≠ []), ?_, ?_, ?_⟩
    · rw [← map_placed, List.filter_map]
      rfl
    · intro i hi
      have hbounds := placed_bounds (List.mem_of_mem_filter hi)
      rw [List.length_append] at hbounds
      omega
    · have hitem : b.trimLeft ++ (l ++ a.trimRight) ≠ [] := by
        rw [hl.eq_cons]
        simp
      have hfirst : ∃ c, (l ++ a).head? = some c ∧ c.is Text.isBlank = false := by
        rw [List.head?_append, hl.first]
        exact ⟨_, rfl, by decide⟩
      have hstart : Text.trimLeft (b ++ (l ++ a)) = b.trimLeft ++ (l ++ a) :=
        Text.trimLeft_before hfirst b
      rw [placedItems, hpieces l (.of_run hl.isRun), placed_append, List.filter_append, placed,
        Nat.zero_add, List.filter_cons, hl.trimmed.trim_around, if_pos (decide_eq_true hitem),
        hstart]
      congr 3
      have hshorter : b.trimLeft.length ≤ b.length := hleft.length_le
      simp only [List.length_append]
      omega

end Items

end SchemaDesk.Sql
