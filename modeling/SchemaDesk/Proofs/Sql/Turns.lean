import SchemaDesk.Proofs.Text.Trimmed
import SchemaDesk.Sql.Grammar

/-!
# The loop of the grammar

What a loop over tokens comes to, turn by turn: a turn that goes on takes tokens from the front and
leaves the rest to later turns (`turns_next`), and a loop whose turns find nothing runs through all
tokens (`turns_idle`).  Names come out of the reading trimmed (`readName_trimmed`).
-/

namespace SchemaDesk.Sql

/-! ## Turns -/

section Turns

variable {α : Type} {turn : Token → List Token → Turn α} {t : Token}

/-- A turn that goes on takes tokens from the front, and the rest is left to later turns. -/
theorem turns_next (used : List Token) {left : List Token} {found : Option α}
    (h : turn t (used ++ left) = .next found left) :
    turns turn (t :: (used ++ left)) =
      (found.toList ++ (turns turn left).1, (turns turn left).2) := by
  have hused : (used ++ left).length - left.length = used.length := by
    rw [List.length_append]
    omega
  show turnsFrom turn 0 (t :: (used ++ left)) = _
  rw [turnsFrom, h]
  show (found.toList ++ (turnsFrom turn ((used ++ left).length - left.length) (used ++ left)).1,
    (turnsFrom turn ((used ++ left).length - left.length) (used ++ left)).2) = _
  rw [hused, turnsFrom_eq_drop, List.drop_left]
  rfl

/-- A turn that stops ends the loop. -/
theorem turns_stop {rest left : List Token} (h : turn t rest = .stop left) :
    turns turn (t :: rest) = ([], left) := by
  show turnsFrom turn 0 (t :: rest) = _
  rw [turnsFrom, h]

/-- A loop in which no turn finds anything or stops runs through all tokens. -/
theorem turns_idle {tokens : List Token}
    (h : ∀ t ∈ tokens, ∀ rest, turn t rest = .next none rest) : turns turn tokens = ([], []) := by
  induction tokens with
  | nil => rfl
  | cons t tokens ih =>
      have hturn := turns_next [] (h t List.mem_cons_self tokens)
      rw [List.nil_append, ih fun u hu => h u (List.mem_cons_of_mem _ hu)] at hturn
      exact hturn

/-- What a loop finds, one of its turns has found. -/
theorem mem_turns {tokens : List Token} {x : α} (h : x ∈ (turns turn tokens).1) :
    ∃ t rest left, turn t rest = .next (some x) left := by
  have hfrom : ∀ passed, x ∈ (turnsFrom turn passed tokens).1 →
      ∃ t rest left, turn t rest = .next (some x) left := by
    clear h
    induction tokens with
    | nil =>
        intro passed h
        cases passed <;> cases h
    | cons t rest ih =>
        intro passed h
        cases passed with
        | succ passed => exact ih passed h
        | zero =>
            rw [turnsFrom] at h
            cases hturn : turn t rest with
            | stop left =>
                rw [hturn] at h
                cases h
            | next found left =>
                rw [hturn] at h
                rcases List.mem_append.1 h with h | h
                · rw [Option.mem_toList] at h
                  cases h
                  exact ⟨t, rest, left, hturn⟩
                · exact ih _ h
  exact hfrom 0 h

end Turns

/-! ## Names -/

/-- A name that is not followed by a point is read as it is written, without blanks around it. -/
theorem readName_alone (t : Token) (rest : List Token) {written n : Text}
    (ht : t.name? = some written) (hn : written.trim = n) (hne : n ≠ [])
    (hrest : rest.head?.any (Token.isMark '.') = false) :
    readName (t :: rest) = (some n, rest) := by
  have hqualified : qualifiedRest written rest = (written, rest) := by
    match rest with
    | [] => rfl
    | [_] => rfl
    | dot :: next :: later =>
        have hdot : dot.isMark '.' = false := hrest
        rw [qualifiedRest, hdot, if_neg Bool.false_ne_true]
  have hempty : n.isEmpty = false := by
    rw [List.isEmpty_eq_false_iff]
    exact hne
  simp only [readName, ht, hqualified, hn, hempty, Bool.false_eq_true, if_false]

/-- A name that is read is trimmed and not empty. -/
theorem readName_trimmed {tokens left : List Token} {n : Text}
    (h : readName tokens = (some n, left)) : n.trim = n ∧ n ≠ [] := by
  cases tokens with
  | nil => cases h
  | cons t rest =>
      rw [readName] at h
      cases hname : t.name? with
      | none => simp [hname] at h
      | some first =>
          simp only [hname, Prod.mk.injEq] at h
          have hclean := h.1
          split at hclean
          · cases hclean
          · next hempty =>
              cases hclean
              have hne := List.isEmpty_eq_false_iff.1 (Bool.not_eq_true _ ▸ hempty)
              exact ⟨(Text.trimmed_trim hne).trim, hne⟩

end SchemaDesk.Sql
