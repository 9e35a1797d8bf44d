import SchemaDesk.Proofs.Session.Again
import SchemaDesk.Proofs.Session.Sound
import SchemaDesk.Proofs.Session.Typed
import SchemaDesk.Proofs.Sql.Unreadable

/-!
# Texts that cannot be applied

In a session with typed tables merging never fails, since what a text declares can be put beside
every sound project.  So a text can be applied exactly if it can be read, and the one thing in a
text that cannot be read is an argument of digits that write no number (`parse_apply_failure`).
-/

namespace SchemaDesk

open Minting

namespace Designer

variable {seen : List Snapshot} {d : Designer} {sql : Text}

/-- An edit of a designer fails as it does on the project. -/
theorem perform_failure {α : Type} (d : Designer) (edit : Edit α) :
    Failure.of? (d.perform edit).result =
      Failure.of? ((edit d.store.project).runFrom d.store.ids).1 := by
  rcases hrun : (edit d.store.project).runFrom d.store.ids with ⟨failure | ⟨a, _ | q⟩, ids'⟩
  · rw [perform_of_error hrun]
    rfl
  · rw [perform_of_none hrun]
    rfl
  · rw [perform_of_some hrun]
    rfl

/-- Applying a text fails as reading it does, if merging what is read cannot fail. -/
theorem applySql_failure (hmerge : ∀ parsed ids', (Sql.parse sql).Gives d.store.ids parsed ids' →
      ∃ q, (Edit.merge parsed.tables parsed.relations d.store.project).Gives ids'
        ((), some q) ids') :
    Failure.of? (d.applySql sql).result =
      Failure.of? ((Sql.parse sql).runFrom d.store.ids).1 := by
  rw [applySql, perform_failure]
  rcases hrun : (Sql.parse sql).runFrom d.store.ids with ⟨failure | parsed, ids'⟩
  · rw [applyEdit, runFrom_bind, hrun]
    rfl
  · obtain ⟨q, hq⟩ := hmerge parsed ids' hrun
    rw [show (applyEdit sql d.store.project).runFrom d.store.ids = _ from
      applyEdit_of_parse hrun hq]
    rfl

end Designer

/-- Reading a text fails with the first argument, taken for a number, that consists of digits which
write none, and if there is no such argument it succeeds.  So does applying it in every state of a
session with typed tables, as long as the identifiers that reading draws are not in use. -/
theorem parse_apply_failure (sql : Text) :
    (∀ ids, Failure.of? ((Sql.parse sql).runFrom ids).1 =
      (Sql.numerals sql).findSome? Sql.unreadable?) ∧
    ∀ seen d, Reached Action.TakesText seen d →
      d.store.ids.FreshFor ((Sql.parse sql).runFrom d.store.ids).2 d.canvas →
        Failure.of? (d.applySql sql).result = (Sql.numerals sql).findSome? Sql.unreadable? := by
  have hparse := Sql.parse_failsWith sql
  refine ⟨hparse, fun seen d hreached hfresh => ?_⟩
  rw [← hparse d.store.ids]
  refine Designer.applySql_failure fun parsed ids' hgives => ?_
  rw [show (Sql.parse sql).runFrom d.store.ids = (.ok parsed, ids') from hgives] at hfresh
  obtain ⟨hsound, hcanvas, -⟩ := hreached.canvases_sound
  have hdeclares := Sql.parse_declares hgives
  have hmergeable := hdeclares.mergeable (hsound _ hcanvas)
    (hreached.canvases_typed _ hcanvas) hfresh
  exact ⟨_, hmergeable.gives (hsound _ hcanvas) hdeclares.sound ids'⟩

/-- Arguments with digits of another script, with digits among other characters, and of a type that
takes no number, in a text that breaks off. -/
def strangeNumerals : Text :=
  "CREATE TABLE t (a VARCHAR(٣٤), b CHAR(²x), c DECIMAL(10, -2), d INT(²), e FLOAT(' "

/-- An argument that is a digit without a decimal value. -/
def superscriptNumeral : Text :=
  "CREATE TABLE t (c VARCHAR(²))"

/-- The first of these texts can be applied in a session, the second one cannot. -/
theorem parse_apply_failure_numerals : ∃ seen d, Reached Action.TakesText seen d ∧
    d.canvas.tables.length = 1 ∧
    Failure.of? (d.applySql strangeNumerals).result = none ∧
    Failure.of? (d.applySql superscriptNumeral).result = some (.notInteger "²") := by
  have start := @Reached.start Action.TakesText {} {} _ rfl
  obtain ⟨seen, d, reached, hlength, hstrange, hsuperscript⟩ := start.exists_proceed
    [.execute (.addTable "T" [])]
    (fun _ d => d.canvas.tables.length = 1 ∧
      d.store.ids.FreshFor ((Sql.parse strangeNumerals).runFrom d.store.ids).2 d.canvas ∧
      d.store.ids.FreshFor ((Sql.parse superscriptNumeral).runFrom d.store.ids).2 d.canvas)
    (by simp [Action.TakesText, Command.TakesText]) (by simp)
    (by rw [strangeNumerals, superscriptNumeral]; repeat rw [Text.ofString_ofList]
        decide +kernel)
  have hreadable : (Sql.numerals strangeNumerals).findSome? Sql.unreadable? = none := by
    rw [strangeNumerals, Text.ofString_ofList]
    decide +kernel
  have hunreadable : (Sql.numerals superscriptNumeral).findSome? Sql.unreadable? =
      some (.notInteger "²") := by
    decide +kernel
  refine ⟨seen, d, reached, hlength, ?_, ?_⟩
  · exact ((parse_apply_failure strangeNumerals).2 _ _ reached hstrange).trans hreadable
  · exact ((parse_apply_failure superscriptNumeral).2 _ _ reached hsuperscript).trans hunreadable

/-- So there is a text that can neither be read nor be applied in a new session. -/
theorem parse_apply_fails :
    (Sql.parse superscriptNumeral).runFrom {} = (.error (.notInteger "²"), {}) ∧
      ∃ d, Designer.ofConfig {} {} = .ok d ∧
        Failure.of? (d.applySql superscriptNumeral).result = some (.notInteger "²") :=
  ⟨by decide +kernel, _, rfl, by decide +kernel⟩

end SchemaDesk
