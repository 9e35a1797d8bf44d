import SchemaDesk.Problem.Basic
import SchemaDesk.Proofs.Text.Trimmed

/-!
# Which reports are in one line

The message of a report always has its heading, its issue and its hint, none of them empty.  So if
the heading has no colon and no line feed, the message is recognised exactly if no line feed is left
in the issue and in the hint once they are trimmed (`Report.isActionable_message`).

Of the reports about a schema only the issue says anything that is not fixed: names, identifiers and
values that it quotes.  Such a report is recognised exactly if there is no line feed in what it
quotes (`Problem.isActionable_iff`).
-/

namespace SchemaDesk

/-! ## Trimmed and joined texts -/

namespace Text

/-- Trimming a text on the right leaves its first part alone if something is left of the rest. -/
theorem mem_trimRight_append {c : CodePoint} {t : Text} (h : c ∉ t) (u : Text) :
    c ∈ trimRight (t ++ u) ↔ c ∈ trimRight u := by
  rw [trimRight, trimRight, List.reverse_append, List.dropWhile_append, List.mem_reverse,
    List.mem_reverse]
  split
  · next hnil =>
      rw [List.isEmpty_iff.1 hnil]
      refine iff_of_false (fun hc => h ?_) List.not_mem_nil
      exact List.mem_reverse.1 ((List.dropWhile_sublist _).subset hc)
  · rw [List.mem_append, List.mem_reverse, or_iff_left h]

theorem mem_of_mem_trim {c : CodePoint} {t : Text} (h : c ∈ t.trim) : c ∈ t :=
  (List.dropWhile_sublist _).subset
    (List.mem_reverse.1 ((List.dropWhile_sublist _).subset (List.mem_reverse.1 h)))

/-- A code point that the separator does not have is in a joined text if it is in one of the
parts. -/
theorem mem_join {c : CodePoint} {separator : Text} (h : c ∉ separator) (parts : List Text) :
    c ∈ join separator parts ↔ ∃ t ∈ parts, c ∈ t := by
  cases parts with
  | nil => simp [join]
  | cons t parts =>
      rw [join_cons, List.mem_append, List.mem_flatMap]
      simp [h]

end Text

namespace Report

/-! ## The parts of a message -/

/-- A cleaned part is not empty. -/
theorem cleaned_ne_nil (part : Text) {standIn : Text} (h : standIn ≠ []) :
    cleaned part standIn ≠ [] := by
  rw [cleaned]
  split
  · exact h
  · next hne => exact fun hnil => hne (List.isEmpty_iff.2 hnil)

/-- Cleaning takes periods away from a trimmed part. -/
theorem mem_cleaned {c : CodePoint} (part : Text) {standIn : Text} (h : c ∉ standIn)
    (hperiod : c ≠ CodePoint.char '.') : c ∈ cleaned part standIn ↔ c ∈ part.trim := by
  have hkept : c ∈ (part.trim.reverse.dropWhile (· = CodePoint.char '.')).reverse ↔
      c ∈ part.trim := by
    rw [List.mem_reverse]
    constructor
    · exact fun hc => List.mem_reverse.1 ((List.dropWhile_sublist _).subset hc)
    · intro hc
      have hsplit := List.takeWhile_append_dropWhile (p := (· = CodePoint.char '.'))
        (l := part.trim.reverse)
      rw [← List.mem_reverse, ← hsplit, List.mem_append] at hc
      refine hc.resolve_left fun htaken => hperiod ?_
      have hdecide := List.mem_takeWhile_imp htaken
      exact of_decide_eq_true hdecide
  rw [cleaned]
  split
  · next hempty =>
      rw [List.isEmpty_iff.1 hempty] at hkept
      exact iff_of_false h fun hc => List.not_mem_nil (hkept.2 hc)
  · exact hkept

/-- Cleaning adds nothing to a part but the text that stands in for it. -/
theorem mem_of_mem_cleaned {c : CodePoint} {part standIn : Text} (h : c ∈ cleaned part standIn) :
    c ∈ part ∨ c ∈ standIn := by
  rw [cleaned] at h
  split at h
  · exact .inr h
  · exact .inl (Text.mem_of_mem_trim (List.mem_reverse.1
      ((List.dropWhile_sublist _).subset (List.mem_reverse.1 h))))

/-- A cleaned part begins with no blank. -/
theorem cleaned_first (part : Text) {standIn : Text}
    (h : ∃ c, standIn.head? = some c ∧ c.is Text.isBlank = false) :
    ∃ c, (cleaned part standIn).head? = some c ∧ c.is Text.isBlank = false := by
  rw [cleaned]
  split
  · exact h
  · next hne =>
      rw [List.isEmpty_iff] at hne
      have hstart : (part.trim.reverse.dropWhile (· = CodePoint.char '.')).reverse <+:
          part.trim := by
        rw [← List.reverse_suffix, List.reverse_reverse]
        exact List.dropWhile_suffix _
      have htrim : part.trim ≠ [] := fun hnil => hne (List.prefix_nil.1 (hnil ▸ hstart))
      obtain ⟨c, hc, hblank⟩ := (Text.trimmed_trim htrim).first
      refine ⟨c, ?_, hblank⟩
      rw [List.head?_eq_some_head hne, hstart.head hne, ← hc, List.head?_eq_some_head htrim]

/-- What stands in front of the issue. -/
def heading (r : Report) : Text :=
  let location := cleaned r.location "Unknown"
  let context := r.context.trim
  if context.isEmpty then location else context ++ " / " ++ location

theorem heading_first (r : Report) :
    ∃ c, r.heading.head? = some c ∧ c.is Text.isBlank = false := by
  rw [heading]
  split
  · exact cleaned_first r.location (by decide)
  · next hne =>
      rw [List.isEmpty_iff] at hne
      obtain ⟨c, hc, hblank⟩ := (Text.trimmed_trim hne).first
      refine ⟨c, ?_, hblank⟩
      rw [List.append_assoc, List.head?_append, hc]
      rfl

/-- A text without a colon, which ends a heading, and without a line feed. -/
def IsPlain (t : Text) : Prop :=
  ∀ c ∈ t, c ≠ CodePoint.char ':' ∧ c ≠ CodePoint.char '\n'

instance (t : Text) : Decidable (IsPlain t) :=
  inferInstanceAs (Decidable (∀ c ∈ t, _))

theorem IsPlain.heading {r : Report} (hcontext : IsPlain r.context)
    (hlocation : IsPlain r.location) : IsPlain r.heading := by
  have hunknown : IsPlain "Unknown" := by decide
  have hslash : IsPlain " / " := by decide
  have hcleaned : IsPlain (cleaned r.location "Unknown") := by
    intro c hc
    rcases mem_of_mem_cleaned hc with hc | hc
    · exact hlocation c hc
    · exact hunknown c hc
  rw [Report.heading]
  split
  · exact hcleaned
  · intro c hc
    rcases List.mem_append.1 hc with hc | hc
    · rcases List.mem_append.1 hc with hc | hc
      · exact hcontext c (Text.mem_of_mem_trim hc)
      · exact hslash c hc
    · exact hcleaned c hc

theorem message_eq (r : Report) :
    r.message = r.heading ++ (": " ++ (cleaned r.issue "unknown issue" ++
      (fixMark ++ (cleaned r.hint "review input and retry" ++ ".")))) := by
  simp only [message, heading, fixMark, List.append_assoc]

/-- A message begins with its heading and ends in a period, so there is nothing to trim. -/
theorem trim_message (r : Report) : r.message.trim = r.message := by
  obtain ⟨start, hstart, hblank⟩ := r.heading_first
  refine Text.Trimmed.trim ⟨⟨start, ?_, hblank⟩, CodePoint.char '.', ?_, by decide⟩
  · rw [message_eq, List.head?_append, hstart]
    rfl
  · rw [message_eq]
    simp only [← List.append_assoc]
    exact List.getLast?_concat

/-- The line feeds of a message are those of its issue and its hint. -/
theorem line_mem_message {r : Report} (h : IsPlain r.heading) :
    CodePoint.char '\n' ∈ r.message ↔
      CodePoint.char '\n' ∈ r.issue.trim ∨ CodePoint.char '\n' ∈ r.hint.trim := by
  have hheading : CodePoint.char '\n' ∉ r.heading := fun hc => (h _ hc).2 rfl
  have hcolon : CodePoint.char '\n' ∉ (": " : Text) := by decide
  have hmark : CodePoint.char '\n' ∉ fixMark := by decide
  have hperiod : CodePoint.char '\n' ∉ ("." : Text) := by decide
  rw [message_eq]
  simp only [List.mem_append, hheading, hcolon, hmark, hperiod, false_or, or_false]
  rw [mem_cleaned r.issue (by decide) (by decide), mem_cleaned r.hint (by decide) (by decide)]

/-! ## Recognising a message -/

/-- What is in front of a hint does not matter. -/
theorem holdsHint_append {hint : Text} (h : endsAsHint hint = true) (hne : hint ≠ [])
    (t : Text) : holdsHint (t ++ hint) = true := by
  induction t with
  | nil =>
      obtain ⟨c, rest, rfl⟩ := List.exists_cons_of_ne_nil hne
      rw [List.nil_append, holdsHint, h, Bool.true_or]
  | cons c t ih => rw [List.cons_append, holdsHint, ih, Bool.or_true]

theorem fixMark_ne_nil (t : Text) : fixMark ++ t ≠ [] :=
  List.append_ne_nil_of_left_ne_nil (by decide) t

theorem endsAsHint_mark {hint : Text} (h : hint ≠ []) :
    endsAsHint (fixMark ++ (hint ++ ".")) = true := by
  have hlength : 0 < hint.length := List.length_pos_iff.2 h
  have hlast : (fixMark ++ (hint ++ ".")).getLast? = some (CodePoint.char '.') := by
    rw [← List.append_assoc]
    exact List.getLast?_concat
  rw [endsAsHint, hlast, Bool.and_eq_true, Bool.and_eq_true]
  refine ⟨⟨List.isPrefixOf_iff_prefix.2 (List.prefix_append _ _), decide_eq_true ?_⟩,
    decide_eq_true rfl⟩
  rw [List.length_append, List.length_append]
  show fixMark.length + 1 < fixMark.length + (hint.length + 1)
  omega

/-- A message whose heading has no colon and no line feed is recognised exactly if the trimmed issue
and the trimmed hint have no line feed. -/
theorem isActionable_message {r : Report} (h : IsPlain r.heading) :
    isActionable r.message = true ↔
      CodePoint.char '\n' ∉ r.issue.trim ∧ CodePoint.char '\n' ∉ r.hint.trim := by
  obtain ⟨start, hstart, -⟩ := r.heading_first
  have hissueNe : cleaned r.issue "unknown issue" ≠ [] := cleaned_ne_nil r.issue (by decide)
  obtain ⟨first, rest, hissue⟩ := List.exists_cons_of_ne_nil hissueNe
  set hint := cleaned r.hint "review input and retry" with hhint
  have hhintNe : hint ≠ [] := cleaned_ne_nil r.hint (by decide)
  have hheading : r.heading.isEmpty = false := by
    rw [List.isEmpty_eq_false_iff]
    intro hnil
    rw [hnil] at hstart
    cases hstart
  have htake : r.message.takeWhile (· ≠ CodePoint.char ':') = r.heading := by
    rw [message_eq, List.takeWhile_append_of_pos fun c hc => decide_eq_true (h c hc).1]
    exact List.append_nil _
  have hdrop : r.message.drop r.heading.length =
      CodePoint.char ':' :: CodePoint.char ' ' :: first ::
        (rest ++ (fixMark ++ (hint ++ "."))) := by
    rw [message_eq, List.drop_left, hissue]
    rfl
  have hholds : holdsHint (rest ++ (fixMark ++ (hint ++ "."))) = true :=
    holdsHint_append (endsAsHint_mark hhintNe) (fixMark_ne_nil _) rest
  rw [isActionable]
  simp only [r.trim_message, htake, hdrop, hholds, hheading, Bool.not_false, Bool.true_and,
    Bool.and_true]
  rw [Bool.not_eq_true', ← Bool.not_eq_true, List.contains_iff_mem, line_mem_message h, not_or]

end Report

/-! ## What a problem quotes -/

namespace Problem

/-- The texts that the issue of a problem of a schema mentions. -/
def mentioned : Problem → List Text
  | .unsupportedFields _ fields _ => fields
  | .unsupportedChoice _ _ value => [value.text]
  | .tableNotFound _ id | .noteNotFound id | .labelNotFound id => [id.text]
  | .columnNotFound _ id tableName => [id.text, tableName.text]
  | .onlyColumn tableName => [tableName.text]
  | .endTableMissing relation _ table => [relation.text, table.text]
  | .endColumnMissing relation _ column => [relation.text, column.text]
  | _ => []

/-- The texts that stay in the issue of a problem of a schema.  Fields stand at the end of an issue,
so the blanks after them do not stay; everything else stands in quotation marks. -/
def quoted : Problem → List Text
  | .unsupportedFields _ fields _ => [(listedSorted fields).trimRight]
  | p => p.mentioned

/-- A problem of a schema, with no line feed in its hint. -/
structure IsOfSchema (p : Problem) : Prop where
  context : p.report.context = Text.ofString "Schema"
  hint : CodePoint.char '\n' ∉ p.report.hint

/-- Names are listed with nothing but commas and spaces between them. -/
theorem mem_listedSorted {c : CodePoint} (h : c ∉ (", " : Text)) {names : List Text} :
    c ∈ listedSorted names ↔ ∃ name ∈ names, c ∈ name := by
  rw [listedSorted, listed, Text.mem_join h]
  simp only [List.mem_mergeSort]

/-- What stays is in what is mentioned. -/
theorem exists_mentioned {p : Problem} {t : Text} (ht : t ∈ p.quoted)
    (hline : CodePoint.char '\n' ∈ t) : ∃ u ∈ p.mentioned, CodePoint.char '\n' ∈ u := by
  cases p with
  | unsupportedFields place fields allowed =>
      rw [quoted, List.mem_singleton] at ht
      rw [ht, Text.trimRight, List.mem_reverse] at hline
      have hlisted := List.mem_reverse.1 ((List.dropWhile_sublist _).subset hline)
      exact (mem_listedSorted (by decide)).1 hlisted
  | _ => exact ⟨t, ht, hline⟩

/-- Texts that stand before and after what an issue quotes: they begin and end with no blank, and
have no line feed. -/
def Frames (before after : Text) : Prop :=
  (before.head?.any (!·.is Text.isBlank) = true ∧ CodePoint.char '\n' ∉ before) ∧
    after.getLast?.any (!·.is Text.isBlank) = true ∧ CodePoint.char '\n' ∉ after

instance (before after : Text) : Decidable (Frames before after) :=
  inferInstanceAs (Decidable (_ ∧ _))

/-- Nothing of a framed text is trimmed, so its line feeds are those of what is framed. -/
theorem Frames.line_iff {before after : Text} (h : Frames before after) (t : Text) :
    CodePoint.char '\n' ∈ Text.trim (before ++ (t ++ after)) ↔ CodePoint.char '\n' ∈ t := by
  obtain ⟨⟨hfirst, hbefore⟩, hlast, hafter⟩ := h
  rw [Option.any_eq_true] at hfirst hlast
  obtain ⟨first, hfirst, hstart⟩ := hfirst
  obtain ⟨last, hlast, hend⟩ := hlast
  rw [Bool.not_eq_true'] at hstart hend
  have htrim : Text.trim (before ++ (t ++ after)) = before ++ (t ++ after) := by
    refine Text.Trimmed.trim ⟨⟨first, ?_, hstart⟩, last, ?_, hend⟩
    · rw [List.head?_append, hfirst]
      rfl
    · rw [List.getLast?_append, List.getLast?_append, hlast]
      rfl
  rw [htrim, List.mem_append, List.mem_append, or_iff_right hbefore, or_iff_left hafter]

section OfSchema

variable {p : Problem}

/-- The heading of a report about a schema has no colon and no line feed. -/
theorem IsOfSchema.heading_plain (h : p.IsOfSchema) : Report.IsPlain p.report.heading := by
  have hschema : Report.IsPlain "Schema" := by decide
  have hplace : ∀ place : Place, Report.IsPlain place.text := by
    intro place
    cases place <;> decide +kernel
  have hzoom : Report.IsPlain "Viewport / Zoom" := by decide
  have hinvariants : Report.IsPlain "Invariants" := by decide
  have hcontext := h.context
  refine .heading (hcontext ▸ hschema) ?_
  cases p with
  | unsupportedFields | nameRequired | unsupportedChoice | tableNotFound | columnNotFound =>
      exact hplace _
  | onlyColumn => exact hplace .deleteColumn
  | noteNotFound => exact hplace .editNote
  | labelNotFound => exact hplace .editLabel
  | zoomNotPositive => exact hzoom
  | duplicateEntityId | duplicateColumnId | endTableMissing | endColumnMissing => exact hinvariants
  | _ => cases hcontext

/-- A trimmed issue of a schema has a line feed exactly if something that it quotes has one. -/
theorem IsOfSchema.issue_line (h : p.IsOfSchema) :
    CodePoint.char '\n' ∈ p.report.issue.trim ↔ ∃ t ∈ p.quoted, CodePoint.char '\n' ∈ t := by
  have hcontext := h.context
  have hfixed : ∀ t ∈ (["name is required", "zoom must be > 0", "duplicate entity id",
      "duplicate column id"] : List Text), CodePoint.char '\n' ∉ t := by decide
  cases p with
  | unsupportedFields place fields allowed =>
      -- the fields end the issue, so the blanks after them go
      have hleft : Text.trimLeft ("unsupported field(s) " ++ listedSorted fields) =
          "unsupported field(s) " ++ listedSorted fields := rfl
      have hkept := Text.mem_trimRight_append (c := CodePoint.char '\n')
        (t := "unsupported field(s) ") (by decide) (listedSorted fields)
      rw [← hleft] at hkept
      simpa [report, schemaReport, quoted, Text.trim] using hkept
  | unsupportedChoice place choice value =>
      have hframes : Frames ("unsupported " ++ (choice.label ++ " '")) "'" := by
        cases choice <;> decide
      simpa [report, schemaReport, quoted, mentioned] using hframes.line_iff value.text
  | tableNotFound place id =>
      have hframes : Frames "table '" "' was not found" := by decide
      simpa [report, schemaReport, quoted, mentioned] using hframes.line_iff id.text
  | noteNotFound id =>
      have hframes : Frames "note '" "' was not found" := by decide
      simpa [report, schemaReport, quoted, mentioned] using hframes.line_iff id.text
  | labelNotFound id =>
      have hframes : Frames "text '" "' was not found" := by decide
      simpa [report, schemaReport, quoted, mentioned] using hframes.line_iff id.text
  | columnNotFound place id tableName =>
      have hframes : Frames "column '" "'" := by decide
      have hmiddle : CodePoint.char '\n' ∉ ("' was not found on table '" : Text) := by decide
      simpa [report, schemaReport, quoted, mentioned, hmiddle] using
        hframes.line_iff (id.text ++ ("' was not found on table '" ++ tableName.text))
  | onlyColumn tableName =>
      have hframes : Frames "column is the only column of table '" "'" := by decide
      simpa [report, schemaReport, quoted, mentioned] using hframes.line_iff tableName.text
  | endTableMissing relation side table =>
      have hframes : Frames "relation '" "' does not exist" := by decide
      have hmiddle : CodePoint.char '\n' ∉ "' " ++ (side.text ++ " table '") := by
        cases side <;> decide
      simp only [List.mem_append, not_or] at hmiddle
      simpa [report, schemaReport, quoted, mentioned, hmiddle] using
        hframes.line_iff (relation.text ++ ("' " ++ (side.text ++ (" table '" ++ table.text))))
  | endColumnMissing relation side column =>
      have hframes : Frames "relation '" "' does not exist" := by decide
      have hmiddle : CodePoint.char '\n' ∉ "' " ++ (side.text ++ " column '") := by
        cases side <;> decide
      simp only [List.mem_append, not_or] at hmiddle
      simpa [report, schemaReport, quoted, mentioned, hmiddle] using
        hframes.line_iff (relation.text ++ ("' " ++ (side.text ++ (" column '" ++ column.text))))
  | nameRequired | zoomNotPositive | duplicateEntityId | duplicateColumnId =>
      refine iff_of_false (fun hline => hfixed _ ?_ (Text.mem_of_mem_trim hline))
        (by simp [quoted, mentioned])
      simp [report, schemaReport]
  | _ => cases hcontext

/-- The message of a problem of a schema is recognised exactly if nothing that it quotes has a line
feed. -/
theorem IsOfSchema.isActionable_iff (h : p.IsOfSchema) :
    Report.isActionable p.message = true ↔ ∀ t ∈ p.quoted, CodePoint.char '\n' ∉ t := by
  have hhint : CodePoint.char '\n' ∉ p.report.hint.trim := fun hmem =>
    h.hint (Text.mem_of_mem_trim hmem)
  rw [message, Report.isActionable_message h.heading_plain, and_iff_left hhint, h.issue_line]
  simp only [not_exists, not_and]

end OfSchema

end Problem

end SchemaDesk
