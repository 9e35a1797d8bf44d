import SchemaDesk.Proofs.Sql.Around

/-!
# What the removal of comments leaves

A text is read in stretches: quoted runs, comments, and single characters (`stretches`).  What the
removal of comments leaves has the same stretches without the comments, with a space for each block
comment (`stretches_stripComments`).  No two stretches that become neighbours read as a new mark or
go on as one run: a line comment leaves the line break after it, a block comment leaves a space, and
a run that is not closed reaches to the end of the text.

It follows that removing comments again changes nothing, that it keeps the quoted runs, and that it
leaves a text as it is where no mark that opens a comment stands outside the quoted runs
(`stripComments_conservative`).
-/

namespace SchemaDesk.Sql

/-! ## Stretches -/

/-- A stretch of a text, as the removal of comments meets it: a quoted run, a comment, or one
character of neither. -/
inductive Stretch where
  | char (c : CodePoint)
  | run (t : Text)
  | lineComment (t : Text)
  | blockComment (t : Text)
  deriving DecidableEq, Repr

namespace Stretch

/-- A stretch as it stands in the text. -/
def text : Stretch → Text
  | .char c => [c]
  | .run t => t
  | .lineComment t => t
  | .blockComment t => t

/-- What is left of a stretch without comments. -/
def left : Stretch → List Stretch
  | .char c => [.char c]
  | .run t => [.run t]
  | .lineComment _ => []
  | .blockComment _ => [.char ' ']

/-- Whether a stretch is a comment. -/
def isComment : Stretch → Bool
  | .lineComment _ => true
  | .blockComment _ => true
  | _ => false

/-- The quoted run that a stretch is, if it is one. -/
def run? : Stretch → Option Text
  | .run t => some t
  | _ => none

end Stretch

/-- What follows the `/*` of a block comment, up to and including the `*/` that closes it. -/
def takeBlock : Text → Text
  | [] => []
  | [c] => [c]
  | c :: d :: rest => if c = '*' ∧ d = '/' then [c, d] else c :: takeBlock (d :: rest)

/-- The stretches of a text: a quote opens a run and two marks open a comment, unless they stand in
an earlier run or comment. -/
def stretches : Text → List Stretch
  | [] => []
  | c :: rest =>
      if isQuote c then
        .run (c :: takeRun c rest) :: stretches (rest.drop (takeRun c rest).length)
      else if c = '-' ∧ rest.head? = some (.char '-') then
        .lineComment (c :: rest.takeWhile (· ≠ .char '\n')) ::
          stretches (rest.dropWhile (· ≠ .char '\n'))
      else if c = '/' ∧ rest.head? = some (.char '*') then
        .blockComment (c :: '*' :: takeBlock rest.tail) ::
          stretches (rest.tail.drop (takeBlock rest.tail).length)
      else .char c :: stretches rest
  termination_by t => t.length
  decreasing_by
    · exact Nat.lt_succ_of_le (List.drop_suffix _ _).length_le
    · exact Nat.lt_succ_of_le (List.dropWhile_suffix _).length_le
    · exact Nat.lt_succ_of_le ((List.drop_suffix _ _).trans (List.tail_suffix _)).length_le
    · exact Nat.lt_succ_self _

theorem takeBlock_isPrefix (t : Text) : takeBlock t <+: t := by
  fun_induction takeBlock t with
  | case1 => exact List.prefix_refl _
  | case2 c => exact List.prefix_refl _
  | case3 c d rest hclose => exact ⟨rest, rfl⟩
  | case4 c d rest hclose ih => simpa using ih

/-- A text is its stretches, one after the other. -/
theorem text_stretches (t : Text) : (stretches t).flatMap Stretch.text = t := by
  fun_induction stretches t with
  | case1 => rfl
  | case2 c rest hquote ih =>
      have hrun := List.prefix_iff_eq_append.1 (takeRun_isPrefix c rest)
      rw [List.flatMap_cons, ih, Stretch.text, List.cons_append, hrun]
  | case3 c rest hquote hline ih =>
      rw [List.flatMap_cons, ih, Stretch.text, List.cons_append, List.takeWhile_append_dropWhile]
  | case4 c rest hquote hline hblock ih =>
      obtain ⟨later, rfl⟩ := List.head?_eq_some_iff.1 hblock.2
      have hrest := List.prefix_iff_eq_append.1 (takeBlock_isPrefix later)
      rw [List.flatMap_cons, ih, Stretch.text, List.cons_append, List.cons_append, List.tail_cons,
        hrest]
  | case5 c rest hquote hline hblock ih =>
      rw [List.flatMap_cons, ih]
      rfl

/-! ## What is left of a stretch -/

/-- A quoted run stays. -/
theorem stripComments_run {c : CodePoint} (h : isQuote c = true) (rest : Text) :
    stripComments (c :: rest) =
      c :: (takeRun c rest ++ stripComments (rest.drop (takeRun c rest).length)) := by
  have hnext := Quoting.next_of_isQuote h
  have hstays : Quoting.bare.stays (c :: takeRun c rest) = true := by
    rw [Quoting.stays, h, hnext, stays_takeRun h]
    rfl
  have hsplit := List.prefix_iff_eq_append.1 (takeRun_isPrefix c rest)
  have hstrip := stripFrom_stays hstays (rest.drop (takeRun c rest).length)
  rw [List.cons_append, hsplit, Quoting.after_cons, hnext, List.cons_append] at hstrip
  rw [stripComments, hstrip]
  cases hclosed : closesRun c rest with
  | true => rw [(takeRun_stays h hclosed).2, stripComments]
  | false =>
      -- nothing follows a run that is not closed
      rw [takeRun_of_open hclosed, List.drop_length]
      rfl

/-- What follows a line is nothing, or begins with its end. -/
theorem dropWhile_line (t : Text) : t.dropWhile (· ≠ .char '\n') = [] ∨
    ∃ u, t.dropWhile (· ≠ .char '\n') = .char '\n' :: u := by
  cases hdrop : t.dropWhile (· ≠ .char '\n') with
  | nil => exact .inl rfl
  | cons c u =>
      have hc := List.head?_dropWhile_not (· ≠ CodePoint.char '\n') t
      rw [hdrop] at hc
      exact .inr ⟨u, by simpa using hc⟩

/-- A line comment is left out, but for the end of its line. -/
theorem stripComments_lineComment {rest : Text} (h : rest.head? = some (.char '-')) :
    stripComments (.char '-' :: rest) = stripComments (rest.dropWhile (· ≠ .char '\n')) := by
  obtain ⟨later, rfl⟩ := List.head?_eq_some_iff.1 h
  have hbreak : .char '\n' ∉ later.takeWhile (· ≠ .char '\n') := fun hmem => by
    simpa using List.mem_takeWhile_imp hmem
  have hline := Line.stripped (l := .comment (later.takeWhile (· ≠ .char '\n'))) hbreak
    (dropWhile_line later)
  rw [Line.text, List.cons_append, List.cons_append, List.takeWhile_append_dropWhile] at hline
  exact hline

/-- The removal of comments goes on after the mark that closes a block comment. -/
theorem stripFrom_takeBlock (t : Text) :
    stripFrom .block t = stripComments (t.drop (takeBlock t).length) := by
  fun_induction takeBlock t with
  | case1 => rfl
  | case2 c => rfl
  | case3 c d rest hclose => simp [stripFrom, hclose, stripComments]
  | case4 c d rest hclose ih =>
      rw [stripFrom, if_neg hclose, ih]
      rfl

/-- A block comment leaves a space. -/
theorem stripComments_blockComment (rest : Text) :
    stripComments (.char '/' :: .char '*' :: rest) =
      .char ' ' :: stripComments (rest.drop (takeBlock rest).length) := by
  rw [← stripFrom_takeBlock]
  simp [stripComments, stripFrom]

/-- A character that opens neither a run nor a comment stays. -/
theorem stripComments_char {c : CodePoint} {rest : Text} (hquote : isQuote c = false)
    (hline : ¬(c = '-' ∧ rest.head? = some (.char '-')))
    (hblock : ¬(c = '/' ∧ rest.head? = some (.char '*'))) :
    stripComments (c :: rest) = c :: stripComments rest := by
  have hnext := Quoting.next_of_not_isQuote hquote
  cases rest with
  | nil => rfl
  | cons d rest =>
      rw [List.head?_cons, Option.some.injEq] at hline hblock
      rw [stripComments, stripFrom, if_neg (fun h => hline h.2), if_neg (fun h => hblock h.2),
        hnext]
      rfl

theorem stretches_char {c : CodePoint} {rest : Text} (hquote : isQuote c = false)
    (hline : ¬(c = '-' ∧ rest.head? = some (.char '-')))
    (hblock : ¬(c = '/' ∧ rest.head? = some (.char '*'))) :
    stretches (c :: rest) = .char c :: stretches rest := by
  rw [stretches, hquote, if_neg Bool.false_ne_true, if_neg hline, if_neg hblock]

/-- The stretches of what is left of a text are those of the text, without the comments. -/
theorem stretches_stripComments (t : Text) :
    stretches (stripComments t) = (stretches t).flatMap Stretch.left := by
  fun_induction stretches t with
  | case1 => simp [stripComments, stripFrom, stretches]
  | case2 c rest hquote ih =>
      -- neither the text after the run nor what a comment leaves there goes on with its quote
      have hhead : (stripComments (rest.drop (takeRun c rest).length)).head? ≠ some c := by
        intro h
        rcases head?_stripFrom h with rfl | rfl | h
        · cases hquote
        · cases hquote
        · exact head?_drop_takeRun c rest h
      have hagain : takeRun c (takeRun c rest ++
          stripComments (rest.drop (takeRun c rest).length)) = takeRun c rest :=
        takeRun_takeRun hhead fun hnil => by rw [hnil]; rfl
      rw [stripComments_run hquote, stretches, if_pos hquote, hagain, List.drop_left, ih]
      rfl
  | case3 c rest hquote hline ih =>
      rw [hline.1, stripComments_lineComment hline.2, ih]
      rfl
  | case4 c rest hquote hline hblock ih =>
      obtain ⟨later, rfl⟩ := List.head?_eq_some_iff.1 hblock.2
      rw [hblock.1, stripComments_blockComment, stretches_char rfl (by simp) (by simp)]
      exact congrArg _ ih
  | case5 c rest hquote hline hblock ih =>
      -- a mark that opens a comment does not arise when the comment after its first half goes
      have hopener : ∀ {d e : CodePoint}, ¬(c = d ∧ rest.head? = some e) → e ≠ '\n' → e ≠ ' ' →
          ¬(c = d ∧ (stripComments rest).head? = some e) := by
        rintro d e hnot hbreak hspace ⟨hd, he⟩
        rcases head?_stripFrom he with he | he | he
        · exact hbreak he
        · exact hspace he
        · exact hnot ⟨hd, he⟩
      have hquote : isQuote c = false := by simpa using hquote
      rw [stripComments_char hquote hline hblock,
        stretches_char hquote (hopener hline (by decide) (by decide))
          (hopener hblock (by decide) (by decide)), ih]
      rfl

/-- What is left of a text is what is left of its stretches. -/
theorem stripComments_text (t : Text) :
    stripComments t = ((stretches t).flatMap Stretch.left).flatMap Stretch.text := by
  rw [← stretches_stripComments, text_stretches]

/-! ## Quoted runs and what is between them -/

/-- The quoted runs of a text that do not stand in comments, in order. -/
def quotedRuns (t : Text) : List Text :=
  (stretches t).filterMap Stretch.run?

/-- What stands before the first run of some stretches, and what stands after each run up to the
next one. -/
def gapsFrom : List Stretch → Text × List Text
  | [] => ([], [])
  | .run _ :: later => ([], (gapsFrom later).1 :: (gapsFrom later).2)
  | s :: later => (s.text ++ (gapsFrom later).1, (gapsFrom later).2)

/-- What stands outside the quoted runs of a text: before, between and after them. -/
def gaps (t : Text) : List Text :=
  (gapsFrom (stretches t)).1 :: (gapsFrom (stretches t)).2

/-- Some texts stand in a text, each one after those before it. -/
def StandIn : List Text → Text → Prop
  | [], _ => True
  | t :: ts, u => ∃ before after, u = before ++ (t ++ after) ∧ StandIn ts after

/-- The two marks that open a comment. -/
def commentOpeners : List Text :=
  ["--", "/*"]

theorem StandIn.append_left {ts : List Text} {u : Text} (h : StandIn ts u) (lead : Text) :
    StandIn ts (lead ++ u) := by
  cases ts with
  | nil => trivial
  | cons t ts =>
      obtain ⟨before, after, rfl, h⟩ := h
      exact ⟨lead ++ before, after, (List.append_assoc ..).symm, h⟩

/-- The quoted runs of a text stand in it. -/
theorem standIn_quotedRuns (t : Text) : StandIn (quotedRuns t) t := by
  have hall : ∀ ss : List Stretch,
      StandIn (ss.filterMap Stretch.run?) (ss.flatMap Stretch.text) := by
    intro ss
    induction ss with
    | nil => trivial
    | cons s ss ih =>
        cases s with
        | run t => exact ⟨[], _, rfl, ih⟩
        | char c => exact ih.append_left _
        | lineComment t => exact ih.append_left _
        | blockComment t => exact ih.append_left _
  have hstand := hall (stretches t)
  rwa [text_stretches] at hstand

/-- Removing comments keeps the quoted runs. -/
theorem quotedRuns_stripComments (t : Text) : quotedRuns (stripComments t) = quotedRuns t := by
  have hleft : ∀ s : Stretch, s.left.filterMap Stretch.run? = s.run?.toList := by
    rintro (c | t | t | t) <;> rfl
  rw [quotedRuns, quotedRuns, stretches_stripComments, List.filterMap_flatMap]
  simp only [hleft, List.filterMap_eq_flatMap_toList]

/-- Removing comments again finds none. -/
theorem stripComments_stripComments (t : Text) :
    stripComments (stripComments t) = stripComments t := by
  have hleft : ∀ s : Stretch, s.left.flatMap Stretch.left = s.left := by
    rintro (c | t | t | t) <;> rfl
  have hsame : (stretches (stripComments t)).flatMap Stretch.left =
      stretches (stripComments t) := by
    simp only [stretches_stripComments, List.flatMap_assoc, hleft]
  rw [stripComments_text (stripComments t), hsame, text_stretches]

/-- A text is kept as it is exactly if it holds no comment. -/
theorem stripComments_eq_self_iff (t : Text) :
    stripComments t = t ↔ ∀ s ∈ stretches t, s.isComment = false := by
  constructor
  · intro h s hs
    rw [← h, stretches_stripComments, List.mem_flatMap] at hs
    obtain ⟨s', -, hs⟩ := hs
    cases s' with
    | char c => rw [List.mem_singleton.1 hs]; rfl
    | run u => rw [List.mem_singleton.1 hs]; rfl
    | lineComment u => cases hs
    | blockComment u => rw [List.mem_singleton.1 hs]; rfl
  · intro h
    have hleft : ∀ s ∈ stretches t, s.left = [s] := by
      intro s hs
      have hcode := h s hs
      cases s with
      | char c => rfl
      | run u => rfl
      | lineComment u => cases hcode
      | blockComment u => cases hcode
    rw [stripComments_text, List.flatMap_congr hleft, List.flatMap_singleton', text_stretches]

theorem mem_commentOpeners {o : Text} :
    o ∈ commentOpeners ↔ o = [.char '-', .char '-'] ∨ o = [.char '/', .char '*'] := by
  rw [commentOpeners, List.mem_cons, List.mem_singleton]
  rfl

/-- A comment begins with one of the two marks. -/
theorem opener_of_comment {t : Text} {s : Stretch} (hs : s ∈ stretches t)
    (hcomment : s.isComment = true) : ∃ o ∈ commentOpeners, o <+: s.text := by
  fun_induction stretches t with
  | case1 => cases hs
  | case2 c rest hquote ih =>
      rcases List.mem_cons.1 hs with rfl | hs
      · cases hcomment
      · exact ih hs
  | case3 c rest hquote hline ih =>
      rcases List.mem_cons.1 hs with rfl | hs
      · obtain ⟨later, rfl⟩ := List.head?_eq_some_iff.1 hline.2
        refine ⟨_, mem_commentOpeners.2 (.inl rfl), later.takeWhile (· ≠ .char '\n'), ?_⟩
        rw [hline.1]
        rfl
      · exact ih hs
  | case4 c rest hquote hline hblock ih =>
      rcases List.mem_cons.1 hs with rfl | hs
      · refine ⟨_, mem_commentOpeners.2 (.inr rfl), takeBlock rest.tail, ?_⟩
        rw [hblock.1]
        rfl
      · exact ih hs
  | case5 c rest hquote hline hblock ih =>
      rcases List.mem_cons.1 hs with rfl | hs
      · cases hcomment
      · exact ih hs

theorem gapsFrom_cons {s : Stretch} (h : s.run? = none) (ss : List Stretch) :
    gapsFrom (s :: ss) = (s.text ++ (gapsFrom ss).1, (gapsFrom ss).2) := by
  cases s with
  | run t => cases h
  | char c => rfl
  | lineComment t => rfl
  | blockComment t => rfl

/-- What is no quoted run stands in a gap. -/
theorem infix_gap {ss : List Stretch} {s : Stretch} (hs : s ∈ ss) (hrun : s.run? = none) :
    ∃ gap ∈ (gapsFrom ss).1 :: (gapsFrom ss).2, s.text <:+: gap := by
  induction ss with
  | nil => cases hs
  | cons s' ss ih =>
      rcases List.mem_cons.1 hs with rfl | hs
      · rw [gapsFrom_cons hrun]
        exact ⟨_, List.mem_cons_self, (List.prefix_append _ _).isInfix⟩
      · obtain ⟨gap, hgap, hin⟩ := ih hs
        cases hrun' : s'.run? with
        | none =>
            rw [gapsFrom_cons hrun']
            rcases List.mem_cons.1 hgap with rfl | hgap
            · exact ⟨_, List.mem_cons_self, hin.trans (List.suffix_append _ _).isInfix⟩
            · exact ⟨gap, List.mem_cons_of_mem _ hgap, hin⟩
        | some t =>
            -- a run ends the gap before it, so the later ones are as they were
            have hcons : (gapsFrom (s' :: ss)).2 = (gapsFrom ss).1 :: (gapsFrom ss).2 := by
              cases s' with
              | run u => rfl
              | _ => cases hrun'
            exact ⟨gap, List.mem_cons_of_mem _ (hcons ▸ hgap), hin⟩

/-- The first gap is how the text begins. -/
theorem firstGap_isPrefix (ss : List Stretch) : (gapsFrom ss).1 <+: ss.flatMap Stretch.text := by
  induction ss with
  | nil => exact List.prefix_refl _
  | cons s ss ih =>
      cases hrun : s.run? with
      | none =>
          rw [gapsFrom_cons hrun, List.flatMap_cons]
          exact (List.prefix_append_right_inj _).2 ih
      | some t =>
          cases s with
          | run u => exact List.nil_prefix
          | _ => cases hrun

/-- In a text without comments no mark that opens one stands outside the quoted runs. -/
theorem no_opener_of_no_comment {t : Text} (h : ∀ s ∈ stretches t, s.isComment = false) :
    ∀ gap ∈ gaps t, ∀ o ∈ commentOpeners, ¬o <:+: gap := by
  have hempty : ∀ o ∈ commentOpeners, ¬o <:+: [] := by
    intro o ho hin
    rw [List.infix_nil.1 hin] at ho
    cases ho with
    | tail _ ho => cases ho with
      | tail _ ho => cases ho
  rw [gaps]
  fun_induction stretches t with
  | case1 =>
      intro gap hgap
      rw [List.mem_singleton.1 hgap]
      exact hempty
  | case2 c rest hquote ih =>
      rw [List.forall_mem_cons] at h
      exact List.forall_mem_cons.2 ⟨hempty, ih h.2⟩
  | case3 c rest hquote hline ih => cases h _ List.mem_cons_self
  | case4 c rest hquote hline hblock ih => cases h _ List.mem_cons_self
  | case5 c rest hquote hline hblock ih =>
      rw [List.forall_mem_cons] at h
      obtain ⟨hfirst, hlater⟩ := List.forall_mem_cons.1 (ih h.2)
      rw [gapsFrom_cons rfl]
      refine List.forall_mem_cons.2 ⟨fun o ho hin => ?_, hlater⟩
      rcases List.infix_cons_iff.1 hin with hstart | hin
      · -- the mark would begin here, where the text has no comment
        have hgap := firstGap_isPrefix (stretches rest)
        rw [text_stretches] at hgap
        have hnext : ∀ {d e : CodePoint},
            [d, e] <+: Stretch.text (.char c) ++ (gapsFrom (stretches rest)).1 →
              c = d ∧ rest.head? = some e := by
          intro d e hstart
          obtain ⟨hd, he⟩ := List.cons_prefix_cons.1 hstart
          obtain ⟨later, hlater⟩ := he.trans hgap
          exact ⟨hd.symm, by rw [← hlater]; rfl⟩
        rcases mem_commentOpeners.1 ho with rfl | rfl
        · exact hline (hnext hstart)
        · exact hblock (hnext hstart)
      · exact hfirst o ho hin

/-- A text holds no comment exactly if no mark that opens one stands outside its quoted runs. -/
theorem no_comment_iff (t : Text) : (∀ s ∈ stretches t, s.isComment = false) ↔
    ∀ gap ∈ gaps t, ∀ o ∈ commentOpeners, ¬o <:+: gap := by
  refine ⟨no_opener_of_no_comment, fun h s hs => ?_⟩
  by_contra hcomment
  rw [Bool.not_eq_false] at hcomment
  have hrun : s.run? = none := by
    cases s with
    | run t => cases hcomment
    | _ => rfl
  obtain ⟨o, ho, hopens⟩ := opener_of_comment hs hcomment
  obtain ⟨gap, hgap, hin⟩ := infix_gap hs hrun
  exact h gap hgap o ho (hopens.isInfix.trans hin)

/-- Removing comments takes nothing but comments, and leaves what else the text consists of.
Doing it again changes nothing.  The quoted runs outside comments stand in what is left, as they are
and in order, and it has no others.  A text is left as it is exactly if no mark that opens a comment
stands outside its quoted runs. -/
theorem stripComments_conservative (t : Text) :
    (stretches t).flatMap Stretch.text = t ∧
    stripComments t = ((stretches t).flatMap Stretch.left).flatMap Stretch.text ∧
    stripComments (stripComments t) = stripComments t ∧
    StandIn (quotedRuns t) (stripComments t) ∧
    quotedRuns (stripComments t) = quotedRuns t ∧
    (stripComments t = t ↔ ∀ gap ∈ gaps t, ∀ o ∈ commentOpeners, ¬o <:+: gap) := by
  refine ⟨text_stretches t, stripComments_text t, stripComments_stripComments t, ?_,
    quotedRuns_stripComments t, ?_⟩
  · rw [← quotedRuns_stripComments]
    exact standIn_quotedRuns _
  · rw [stripComments_eq_self_iff, no_comment_iff]

example : quotedRuns "a -- 'b'\n'c''d' /* \"e */ `f" = ["'c''d'", "`f"] := by decide +kernel

end SchemaDesk.Sql
