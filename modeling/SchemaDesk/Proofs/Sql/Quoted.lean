import SchemaDesk.Proofs.Sql.Placed
import SchemaDesk.Proofs.Sql.TableText

/-!
# Quoted texts in a text

A name in the quotes of an engine and a literal are read back as the one token that they were
written for, with the tokens of what follows after it, exactly if what follows does not begin with
another such quote, which would make the last quote a doubled one (`tokenize_run_iff`).

To the other scanners a quoted text is a unit wherever they meet it outside quotes: comments are
removed before it and after it, it belongs to one item, and a group goes on after it
(`quoted_scanned`).
-/

namespace SchemaDesk.Sql

/-- A text in quotes: a name in the quotes of an engine, or a literal. -/
inductive Quoted (database : Value) : Text → Prop where
  | name {n q : Text} : quoteIdentifier (.str n) database = .ok q → Quoted database q
  | literal (v : Text) : Quoted database (quoteLiteral v)

namespace Quoted

variable {database : Value} {q : Text}

theorem isRun (h : Quoted database q) : IsRun q := by
  cases h with
  | name hq =>
      cases hq
      rcases nameQuote_cases database with hquote | hquote
      · rw [hquote]
        exact isRun_quoteName rfl (by decide) _
      · rw [hquote]
        exact isRun_quoteName rfl (by decide) _
  | literal v => exact isRun_quoteLiteral v

theorem isItem (h : Quoted database q) : IsItem q := by
  cases h with
  | name hq =>
      cases hq
      exact isItem_quoteName (nameQuote_cases database) _
  | literal v => exact isItem_quoteLiteral v

end Quoted

/-- Around an item of one more text the items are the same whichever it is, and one item holds it. -/
theorem splitItems_around {before : Text} (hout : Quoting.bare.after before = .bare) (after : Text) :
    ∃ earlier lead trail later, lead <:+ before ∧ trail <+: after ∧ ∀ t, IsItem t →
      splitItems (before ++ (t ++ after)) = earlier ++ (lead ++ (t ++ trail)) :: later := by
  obtain ⟨ps, b, a, qs, -, hb, ha, -, hpieces⟩ := piecesFrom_frame 0 hout after
  refine ⟨(ps.map Text.trim).filter (· ≠ []), b.trimLeft, a.trimRight,
    (qs.map Text.trim).filter (· ≠ []), (List.dropWhile_suffix _).trans hb,
    a.trimRight_isPrefix.trans ha, fun t ht => ?_⟩
  have hne : b.trimLeft ++ (t ++ a.trimRight) ≠ [] := by simp [ht.trimmed.ne_nil]
  rw [splitItems]
  simp only
  rw [hpieces t ht.solid, List.map_append, List.map_cons, ht.trimmed.trim_around, List.filter_append,
    List.filter_cons, if_pos (decide_eq_true hne)]

/-! ## Tokens -/

section Tokens

variable {quote : CodePoint} {run : Text} {l : Lexeme}

theorem isWordChar_of_isQuote (h : isQuote quote = true) : isWordChar quote = false := by
  by_contra hword
  rw [isQuote_of_isSolidChar (isSolidChar_of_isWordChar (Bool.not_eq_false _ ▸ hword))] at h
  cases h

theorem isBlank_of_isQuote (h : isQuote quote = true) : quote.is Text.isBlank = false := by
  by_contra hblank
  rw [isQuote_of_isSolidChar (isSolidChar_of_blank (Bool.not_eq_false _ ▸ hblank))] at h
  cases h

/-- A run that is read as one token where its quote does not follow is the first token of a text
exactly if its quote does not follow, and then come the tokens of what follows. -/
theorem tokenize_run_iff (hquote : isQuote quote = true)
    (hread : ∀ s : Text, s.head? ≠ some quote → leading quote (run ++ s) = (l, run.length))
    (s : Text) :
    tokenize (quote :: run ++ s) = ⟨l, 0, (quote :: run).length⟩ ::
        (tokenize s).map (Token.shift (quote :: run).length) ↔
      s.head? ≠ some quote := by
  constructor
  · intro htokens
    -- the first token takes the whole run, and after that its quote does not follow
    have hleading : (leading quote (run ++ s)).2 = (takeRun quote (run ++ s)).length := by
      rw [leading, isWordChar_of_isQuote hquote, if_neg Bool.false_ne_true,
        closer?_of_isQuote hquote]
    have hlength : (takeRun quote (run ++ s)).length = run.length := by
      rw [tokenize, List.cons_append, tokensFrom, isBlank_of_isQuote hquote,
        if_neg Bool.false_ne_true] at htokens
      have hstop : 0 + 1 + (leading quote (run ++ s)).2 = run.length + 1 :=
        congrArg Token.stop (List.cons.inj htokens).1
      omega
    have hend := head?_drop_takeRun quote (run ++ s)
    rwa [hlength, List.drop_left] at hend
  · intro hs
    rw [tokenize, tokensFrom_leading (isBlank_of_isQuote hquote) (hread s hs), tokensFrom_shifted]
    rw [Nat.zero_add]
    rfl

end Tokens

/-- Quoting is undone by the scanners.  A name in the quotes of an engine, and a literal, are read as
one token of their whole text that has the name or the value, before the tokens of what follows,
exactly if the closing quote does not follow.  Wherever a quoted text stands outside quotes, the
removal of comments leaves it as it is, it belongs to one item whatever it says, and a group that
it stands in goes on after it. -/
theorem quoted_scanned (database : Value) :
    (∀ n, ∃ q, quoteIdentifier (.str n) database = .ok q ∧ ∀ s,
      (tokenize (q ++ s) = ⟨.quoted n, 0, q.length⟩ :: (tokenize s).map (Token.shift q.length) ↔
        s.head? ≠ some (nameQuote database))) ∧
    (∀ v s, tokenize (quoteLiteral v ++ s) = ⟨.literal v, 0, (quoteLiteral v).length⟩ ::
        (tokenize s).map (Token.shift (quoteLiteral v).length) ↔ s.head? ≠ some (.char '\'')) ∧
    ∀ before after,
      (endFrom (.code .bare) before = .code .bare → ∀ q, Quoted database q →
        stripComments (before ++ (q ++ after)) =
          stripComments before ++ (q ++ stripComments after)) ∧
      (Quoting.bare.after before = .bare → ∃ earlier lead trail later,
        lead <:+ before ∧ trail <+: after ∧ ∀ q, Quoted database q →
          splitItems (before ++ (q ++ after)) = earlier ++ (lead ++ (q ++ trail)) :: later) ∧
      ∀ depth q, Quoted database q →
        piecesFrom depth .bare (q ++ after) =
          (q ++ (piecesFrom depth .bare after).1, (piecesFrom depth .bare after).2) ∧
        takeGroup depth .bare (q ++ after) = (takeGroup depth .bare after).map (q ++ ·) := by
  refine ⟨fun n => ⟨_, rfl, fun s => ?_⟩, fun v s => ?_, fun before after => ⟨?_, ?_, ?_⟩⟩
  · have hquote := nameQuote_cases database
    refine tokenize_run_iff ?_ (fun s hs => leading_quoteName hquote n hs) s
    rcases hquote with hquote | hquote
    · rw [hquote]
      rfl
    · rw [hquote]
      rfl
  · exact tokenize_run_iff rfl (fun s hs => leading_quoteLiteral v hs) s
  · intro hend q hq
    exact stripComments_around hend hq.isRun hq.isItem.trimmed.ne_nil after
  · intro hout
    obtain ⟨earlier, lead, trail, later, hlead, htrail, hitems⟩ := splitItems_around hout after
    exact ⟨earlier, lead, trail, later, hlead, htrail, fun q hq => hitems q hq.isItem⟩
  · intro depth q hq
    exact ⟨hq.isItem.solid.whole depth after, hq.isItem.solid.grouped depth after⟩

end SchemaDesk.Sql
