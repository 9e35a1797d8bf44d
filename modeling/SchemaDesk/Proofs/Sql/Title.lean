import SchemaDesk.Edit.Basic
import SchemaDesk.Proofs.Sql.RoundTrip
import SchemaDesk.Proofs.Sql.Written

/-!
# The name of a project in its text

A text begins with the name of its project, which stands in a comment without quotes.  A comment
reaches to the end of its line, so a name of one line is passed over, and the tables and relations
that are read from the text are the same under every such name (`parse_ddl_renamed`).

What follows the first line break of a name is no comment any more.  So a name can hold a statement
that declares a table of its own (`parse_ddl_renamed_fails`).
-/

namespace SchemaDesk.Sql

/-! ## Comments at the head of a text -/

theorem stripComments_newline (u : Text) :
    stripComments (.char '\n' :: u) = .char '\n' :: stripComments u := by
  have hneutral : Neutral [.char '\n'] := Neutral.char rfl
  exact hneutral.kept u

/-- Of a line that is a comment only its end is left. -/
theorem stripComments_comment {t : Text} (h : .char '\n' ∉ t) (u : Text) :
    stripComments (.char '-' :: .char '-' :: (t ++ .char '\n' :: u)) =
      stripComments (.char '\n' :: u) := by
  have hline := Line.stripped (l := .comment t) h (.inr ⟨u, rfl⟩)
  exact hline

/-- Two comments at the head of a text leave nothing but the ends of their lines. -/
theorem stripComments_head {name stamp : Text} (hname : .char '\n' ∉ name)
    (hstamp : .char '\n' ∉ stamp) (lines : List Text) :
    stripComments (Text.join "\n" (headLines name stamp ++ lines)) =
      .char '\n' :: .char '\n' :: stripComments (lines.flatMap (Text.ofString "\n" ++ ·)) := by
  have hcomment : ∀ lead : Text, .char '\n' ∉ lead → ∀ {t : Text}, .char '\n' ∉ t →
      .char '\n' ∉ lead ++ t := by
    intro lead hlead t ht hmem
    exact (List.mem_append.1 hmem).elim hlead ht
  have hdatabase := hcomment " Database: " (by decide) hname
  have hgenerated := hcomment " Generated at: " (by decide) hstamp
  have hjoin : Text.join "\n" (headLines name stamp ++ lines) =
      .char '-' :: .char '-' :: (Text.ofString " Database: " ++ name ++ .char '\n' ::
        .char '-' :: .char '-' :: (Text.ofString " Generated at: " ++ stamp ++ .char '\n' ::
          lines.flatMap (Text.ofString "\n" ++ ·))) := by
    rw [headLines, List.cons_append, Text.join_cons]
    rfl
  rw [hjoin, stripComments_comment hdatabase, stripComments_newline,
    stripComments_comment hgenerated, stripComments_newline]

/-! ## Projects under different names -/

open Minting

/-- Naming a project changes nothing but its name. -/
theorem setProjectName_gives {v : Value} {p q : Project} {a : Unit} {ids ids' : IdSupply}
    (h : (Edit.setProjectName v p).Gives ids (a, some q) ids') :
    ∃ clean, Edit.name v .projectName = .ok clean ∧ q = { p with name := .str clean } := by
  simp only [Edit.setProjectName, gives_bind, gives_ofExcept, gives_pure, Prod.mk.injEq,
    Option.some.injEq] at h
  obtain ⟨clean, _, ⟨hclean, -⟩, ⟨-, rfl⟩, -⟩ := h
  exact ⟨clean, hclean, rfl⟩

/-- A project can be written under one name if it can be under another one, and from both texts the
same is read, as long as each name is one line. -/
theorem ddl_renamed {p : Project} {name name' stamp stamp' text : Text}
    (hname : .char '\n' ∉ name) (hname' : .char '\n' ∉ name') (hstamp : .char '\n' ∉ stamp)
    (hstamp' : .char '\n' ∉ stamp') (h : ddl { p with name := .str name } stamp = .ok text) :
    ∃ text', ddl { p with name := .str name' } stamp' = .ok text' ∧
      stripComments text' = stripComments text := by
  -- the statements of the tables and relations do not mention the name
  obtain ⟨creates, alters, hcreates, hkeys, halters, rfl⟩ := ddl_eq_ok.1 h
  refine ⟨_, ddl_eq_ok.2 ⟨creates, alters, hcreates, hkeys, halters, rfl⟩, ?_⟩
  rw [Value.text_str, Value.text_str, stripComments_head hname' hstamp',
    stripComments_head hname hstamp]

/-- Comments take no part in reading a text. -/
theorem parse_congr {sql sql' : Text} (h : stripComments sql = stripComments sql') :
    parse sql = parse sql' := by
  have hstatements : statements sql = statements sql' := by
    unfold statements
    rw [h]
  unfold parse
  rw [hstatements]

/-- Under every two names of one line that a project is given, its texts declare the same: reading
them gives the same tables, columns, flags and relations, down to the identifiers. -/
theorem parse_ddl_renamed {p q q' : Project} {v v' : Value} {ids₁ ids₂ ids₃ ids₄ : IdSupply}
    (hq : (Edit.setProjectName v p).Gives ids₁ ((), some q) ids₂)
    (hq' : (Edit.setProjectName v' p).Gives ids₃ ((), some q') ids₄)
    (hline : .char '\n' ∉ q.name.text) (hline' : .char '\n' ∉ q'.name.text)
    (time time' : Timestamp) {text : Text} (h : ddl q (.ofString time.text) = .ok text) :
    ∃ text', ddl q' (.ofString time'.text) = .ok text' ∧
      ∀ ids, (parse text').runFrom ids = (parse text).runFrom ids := by
  obtain ⟨name, -, rfl⟩ := setProjectName_gives hq
  obtain ⟨name', -, rfl⟩ := setProjectName_gives hq'
  obtain ⟨text', htext', hsame⟩ := ddl_renamed hline hline' (newline_notMem_stamp time)
    (newline_notMem_stamp time') h
  refine ⟨text', htext', fun ids => ?_⟩
  rw [parse_congr hsame]

/-- A project with one table. -/
def oneTable : Project :=
  { id := "p"
    tables := [{ id := "t", name := "a", columns := [{ id := "c", name := "b" }] }] }

/-- A name that opens quotes and a comment and holds a statement is as harmless as a plain one. -/
theorem parse_ddl_renamed_quoted :
    ∃ q q' text text',
      (Edit.setProjectName " shop " oneTable).Gives {} ((), some q) {} ∧
      (Edit.setProjectName "it's /* \"; CREATE TABLE evil (id INT); --" oneTable).Gives {}
        ((), some q') {} ∧
      ddl q "2026-01-02T03:04:05" = .ok text ∧ ddl q' "2026-01-02T03:04:06" = .ok text' ∧
      ∀ ids, (parse text').runFrom ids = (parse text).runFrom ids := by
  have hq : (Edit.setProjectName " shop " oneTable).Gives {}
      ((), some { oneTable with name := "shop" }) {} := rfl
  have hq' : (Edit.setProjectName "it's /* \"; CREATE TABLE evil (id INT); --" oneTable).Gives {}
      ((), some { oneTable with name := "it's /* \"; CREATE TABLE evil (id INT); --" }) {} := rfl
  obtain ⟨text, htext⟩ : ∃ text,
      ddl { oneTable with name := "shop" } "2026-01-02T03:04:05" = .ok text := ⟨_, rfl⟩
  obtain ⟨text', htext', hsame⟩ := parse_ddl_renamed hq hq' (by decide) (by decide)
    { year := 2026, month := 1, day := 2, hour := 3, minute := 4, second := 5 }
    { year := 2026, month := 1, day := 2, hour := 3, minute := 4, second := 6 } htext
  exact ⟨_, _, text, text', hq, hq', htext, htext', hsame⟩

/-- A name may have several lines, and what stands in the second one is a statement like any other:
the text of an empty project declares a table under it. -/
theorem parse_ddl_renamed_fails :
    ∃ q q' text text' parsed parsed' ids' ids'',
      (Edit.setProjectName "shop" { id := "p" }).Gives {} ((), some q) {} ∧
      (Edit.setProjectName "shop\nCREATE TABLE evil (id INT);" { id := "p" }).Gives {}
        ((), some q') {} ∧
      ddl q "2026-01-02T03:04:05" = .ok text ∧ ddl q' "2026-01-02T03:04:05" = .ok text' ∧
      (parse text).Gives {} parsed ids' ∧ (parse text').Gives {} parsed' ids'' ∧
      parsed.tables = [] ∧ parsed'.tables.map Table.name = [.str "evil"] := by
  have hread : ∀ (name : Text) (declared : List Value),
      ((ddl { id := "p", name := .str name } "2026-01-02T03:04:05").toOption.any fun text =>
        ((parse text).runFrom {}).1.toOption.any fun parsed =>
          decide (parsed.tables.map Table.name = declared)) = true →
      ∃ text parsed ids', ddl { id := "p", name := .str name } "2026-01-02T03:04:05" = .ok text ∧
        (parse text).Gives {} parsed ids' ∧ parsed.tables.map Table.name = declared := by
    intro name declared h
    cases hddl : ddl { id := "p", name := .str name } "2026-01-02T03:04:05" with
    | error e =>
        rw [hddl] at h
        cases h
    | ok text =>
        rw [hddl] at h
        obtain ⟨parsed, hparsed, htables⟩ := gives_of_any h rfl
        exact ⟨text, parsed, _, rfl, hparsed, of_decide_eq_true htables⟩
  obtain ⟨text, parsed, ids', htext, hparsed, htables⟩ := hread "shop" [] (by decide +kernel)
  obtain ⟨text', parsed', ids'', htext', hparsed', htables'⟩ :=
    hread "shop\nCREATE TABLE evil (id INT);" [.str "evil"] (by decide +kernel)
  exact ⟨_, _, text, text', parsed, parsed', ids', ids'', rfl, rfl, htext, htext', hparsed, hparsed',
    List.map_eq_nil_iff.1 htables, htables'⟩

end SchemaDesk.Sql
