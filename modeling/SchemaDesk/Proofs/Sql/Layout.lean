import SchemaDesk.Proofs.Sql.Passed
import SchemaDesk.Proofs.Text.Trimmed

/-!
# Items and lines

Two ways of putting texts together are undone exactly: items with commas between them are split
again (`splitItems_listed`), and of lines put one under the other only the comments go
(`stripComments_lines`).  What stands in the items or lines may be anything that the scanners pass
over.
-/

namespace SchemaDesk.Sql

/-- Blanks mean nothing to a scanner. -/
theorem isSolidChar_of_blank {c : CodePoint} (h : c.is Text.isBlank = true) :
    isSolidChar c = true := by
  have hother : ∀ d : CodePoint, d.is Text.isBlank = false → c ≠ d := by
    rintro d hd rfl
    rw [hd] at h
    cases h
  have hchars : c ≠ '\'' ∧ c ≠ '"' ∧ c ≠ '`' ∧ c ≠ '-' ∧ c ≠ '/' ∧ c ≠ '(' ∧ c ≠ ')' ∧ c ≠ ',' := by
    refine ⟨?_, ?_, ?_, ?_, ?_, ?_, ?_, ?_⟩ <;> exact hother _ (by decide)
  simp [isSolidChar, isPlain, isQuote, hchars]

theorem Solid.of_blank {t : Text} (h : Text.isBlankText t = true) : Solid t := by
  refine .of_all (List.all_eq_true.2 fun c hc => ?_)
  exact isSolidChar_of_blank (List.all_eq_true.1 h c hc)

/-! ## Items -/

/-- An item of a list: it holds no comma that separates, and no blanks at its ends. -/
structure IsItem (t : Text) : Prop where
  solid : Solid t
  trimmed : t.Trimmed

/-- A comma after a solid text ends its piece. -/
theorem piecesFrom_comma {t : Text} (h : Solid t) (u : Text) :
    piecesFrom 0 .bare (t ++ .char ',' :: u) =
      (t, (piecesFrom 0 .bare u).1 :: (piecesFrom 0 .bare u).2) := by
  rw [h.whole, piecesFrom, if_pos ⟨rfl, rfl, rfl⟩, List.append_nil]

/-- The pieces of listed items, once they are trimmed, are the items. -/
theorem pieces_items {lead gap trail : Text} (hlead : Text.isBlankText lead = true)
    (hgap : Text.isBlankText gap = true) (htrail : Text.isBlankText trail = true) {x : Text}
    {xs : List Text} (hx : IsItem x) (hxs : ∀ y ∈ xs, IsItem y) :
    let pieces := piecesFrom 0 .bare
      (lead ++ (x ++ (xs.flatMap (fun y => .char ',' :: (gap ++ y)) ++ trail)))
    (pieces.1 :: pieces.2).map Text.trim = x :: xs := by
  induction xs generalizing lead x with
  | nil =>
      have hsolid : Solid (lead ++ (x ++ trail)) :=
        (Solid.of_blank hlead).append (hx.solid.append (.of_blank htrail))
      have hpieces := hsolid.whole 0 []
      rw [List.append_nil] at hpieces
      simp only [List.flatMap_nil, List.nil_append, hpieces, piecesFrom, List.append_nil,
        List.map_cons, List.map_nil]
      rw [Text.trim_surrounded hlead htrail, hx.trimmed.trim]
  | cons y ys ih =>
      -- the comma after the first item ends its piece, and the gap leads on to the next one
      have hfirst : Solid (lead ++ x) := (Solid.of_blank hlead).append hx.solid
      have htext : lead ++ (x ++ ((y :: ys).flatMap (fun y => .char ',' :: (gap ++ y)) ++ trail)) =
          (lead ++ x) ++ .char ',' ::
            (gap ++ (y ++ (ys.flatMap (fun y => .char ',' :: (gap ++ y)) ++ trail))) := by
        simp
      have hrest := ih hgap (hxs y List.mem_cons_self) fun z hz =>
        hxs z (List.mem_cons_of_mem _ hz)
      have htrim : (lead ++ x).trim = x := by
        have hnil : Text.isBlankText [] = true := rfl
        have hsurrounded := Text.trim_surrounded hlead hnil x
        rwa [List.append_nil, hx.trimmed.trim] at hsurrounded
      simp only at hrest ⊢
      rw [htext, piecesFrom_comma hfirst, List.map_cons, htrim, hrest]

/-- Splitting listed items gives the items, whatever blanks stand around them. -/
theorem splitItems_listed {lead gap trail : Text} (hlead : Text.isBlankText lead = true)
    (hgap : Text.isBlankText gap = true) (htrail : Text.isBlankText trail = true)
    {items : List Text} (h : ∀ x ∈ items, IsItem x) :
    splitItems (lead ++ (Text.join (.char ',' :: gap) items ++ trail)) = items := by
  cases items with
  | nil =>
      have hblank : Text.isBlankText (lead ++ trail) = true := by
        rw [Text.isBlankText, List.all_append, Bool.and_eq_true]
        exact ⟨hlead, htrail⟩
      have hpieces := (Solid.of_blank hblank).whole 0 []
      rw [List.append_nil] at hpieces
      have htrim : (lead ++ trail).trim = [] := by
        have hsurrounded := Text.trim_surrounded hlead htrail []
        simpa using hsurrounded
      show splitItems (lead ++ trail) = []
      simp [splitItems, hpieces, piecesFrom, htrim]
  | cons x xs =>
      have hpieces := pieces_items hlead hgap htrail (h x List.mem_cons_self) fun y hy =>
        h y (List.mem_cons_of_mem _ hy)
      simp only at hpieces
      rw [Text.join_cons, List.append_assoc]
      simp only [List.cons_append, splitItems, hpieces]
      refine List.filter_eq_self.2 fun y hy => ?_
      exact decide_eq_true (h y hy).trimmed.ne_nil

/-- Items alone, with nothing around them. -/
theorem splitItems_join (gap : Text) (hgap : Text.isBlankText gap = true) {items : List Text}
    (h : ∀ x ∈ items, IsItem x) : splitItems (Text.join (.char ',' :: gap) items) = items := by
  have hnil : Text.isBlankText [] = true := rfl
  have hlisted := splitItems_listed hnil hgap hnil h
  rwa [List.nil_append, List.append_nil] at hlisted

/-- Texts put together from neutral ones. -/
theorem Neutral.join {separator : Text} (hseparator : Neutral separator) {ts : List Text}
    (h : ∀ t ∈ ts, Neutral t) : Neutral (Text.join separator ts) := by
  cases ts with
  | nil => exact .nil
  | cons t ts =>
      rw [Text.join_cons]
      refine (h t List.mem_cons_self).append ?_
      have hts : ∀ u ∈ ts, Neutral u := fun u hu => h u (List.mem_cons_of_mem _ hu)
      clear h
      induction ts with
      | nil => exact .nil
      | cons u ts ih =>
          rw [List.flatMap_cons]
          exact (hseparator.append (hts u List.mem_cons_self)).append
            (ih fun v hv => hts v (List.mem_cons_of_mem _ hv))

/-! ## Lines -/

/-- A line of code, or a comment without its two dashes. -/
inductive Line where
  | code (t : Text)
  | comment (t : Text)

namespace Line

/-- A line as it is written. -/
def text : Line → Text
  | .code t => t
  | .comment t => .char '-' :: .char '-' :: t

/-- What is left of a line without comments. -/
def uncommented : Line → Text
  | .code t => t
  | .comment _ => []

/-- Whether a line ends where it seems to: code is neutral, and a comment is one line only. -/
def Ends : Line → Prop
  | .code t => Neutral t
  | .comment t => .char '\n' ∉ t

end Line

/-- The text of a comment is left out. -/
theorem stripFrom_line {t : Text} (h : .char '\n' ∉ t) (u : Text) :
    stripFrom .line (t ++ u) = stripFrom .line u := by
  induction t with
  | nil => rfl
  | cons c t ih =>
      rw [List.mem_cons, not_or] at h
      rw [List.cons_append, stripFrom, if_neg (Ne.symm h.1), ih h.2]

/-- A line loses its comment, before the end of the line or of the text. -/
theorem Line.stripped {l : Line} (h : l.Ends) {u : Text}
    (hu : u = [] ∨ ∃ v, u = .char '\n' :: v) :
    stripFrom (.code .bare) (l.text ++ u) = l.uncommented ++ stripFrom (.code .bare) u := by
  cases l with
  | code t => exact Neutral.kept h u
  | comment t =>
      have hopen : stripFrom (.code .bare) (Line.text (.comment t) ++ u) =
          stripFrom .line (t ++ u) := by
        simp [Line.text, stripFrom]
      -- the comment ends with the text or keeps the end of its line
      rw [hopen, stripFrom_line h]
      rcases hu with rfl | ⟨v, rfl⟩
      · rfl
      · have hbreak := (Neutral.char (c := .char '\n') rfl).kept v
        rw [List.singleton_append] at hbreak
        rw [hbreak, stripFrom, if_pos rfl]
        rfl

/-- Of lines put one under the other only the comments go. -/
theorem stripComments_lines {lines : List Line} (h : ∀ l ∈ lines, l.Ends) :
    stripComments (Text.join "\n" (lines.map Line.text)) =
      Text.join "\n" (lines.map Line.uncommented) := by
  have hnext : ∀ ls : List Line, ((ls.map Line.text).flatMap ((.char '\n') :: ·)) = [] ∨
      ∃ v, ((ls.map Line.text).flatMap ((.char '\n') :: ·)) = .char '\n' :: v := by
    intro ls
    cases ls with
    | nil => exact .inl rfl
    | cons m ms => exact .inr ⟨_, rfl⟩
  have hlater : ∀ ls : List Line, (∀ l ∈ ls, l.Ends) →
      stripFrom (.code .bare) ((ls.map Line.text).flatMap ((.char '\n') :: ·)) =
        (ls.map Line.uncommented).flatMap ((.char '\n') :: ·) := by
    intro ls hls
    induction ls with
    | nil => rfl
    | cons l ls ih =>
        have hbreak := (Neutral.char (c := .char '\n') rfl).kept
        simp only [List.singleton_append] at hbreak
        rw [List.map_cons, List.flatMap_cons, List.cons_append, hbreak,
          Line.stripped (hls l List.mem_cons_self) (hnext ls),
          ih fun m hm => hls m (List.mem_cons_of_mem _ hm)]
        rfl
  cases lines with
  | nil => rfl
  | cons l ls =>
      rw [List.map_cons, List.map_cons, Text.join_cons, Text.join_cons, stripComments]
      exact (Line.stripped (h l List.mem_cons_self) (hnext ls)).trans
        (congrArg (l.uncommented ++ ·) (hlater ls fun m hm => h m (List.mem_cons_of_mem _ hm)))

end SchemaDesk.Sql
