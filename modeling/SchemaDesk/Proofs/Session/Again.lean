import SchemaDesk.Proofs.Edit.Again
import SchemaDesk.Proofs.Session.InStep

/-!
# Applying a text again

A text is read under new identifiers every time it is applied.  Merging it a second time changes
nothing all the same, provided that the new identifiers are used nowhere in the project, not even in
a reference to something that is gone (`IdSupply.NewTo`).  In a designer the canvas is then the one
that the history shows already, so nothing is recorded and nothing that was undone is forgotten.
-/

namespace SchemaDesk

open Minting

/-- The identifiers drawn between two states of the supply are used nowhere in a project, neither as
identifiers nor in references. -/
structure IdSupply.NewTo (ids ids' : IdSupply) (p : Project) : Prop where
  identifiers : ids.FreshFor ids' p.snapshot
  references : ∀ n, ids.drawn < n → n ≤ ids'.drawn →
    Value.str (identifier n) ∉ Edit.Merge.references p.tables

instance (ids ids' : IdSupply) (p : Project) : Decidable (ids.NewTo ids' p) :=
  decidable_of_iff
    (ids.FreshFor ids' p.snapshot ∧
      ∀ n ∈ List.range' (ids.drawn + 1) (ids'.drawn - ids.drawn),
        Value.str (identifier n) ∉ Edit.Merge.references p.tables)
    (by
      simp only [List.mem_range'_1]
      exact ⟨fun h => ⟨h.1, fun n hn hn' => h.2 n (by omega)⟩,
        fun h => ⟨h.1, fun n hn => h.2 n (by omega) (by omega)⟩⟩)

/-! ## Two readings of a text -/

section Readings

variable {p q : Project} {sql : Text} {parsed again : Parsed} {ids ids' second second' : IdSupply}

/-- What a text declares in two readings is such that the second merge repeats the first. -/
theorem Sql.repeats (hp : p.IsSound) (htyped : ∀ t ∈ p.tables, t.IsTyped)
    (hparse : (Sql.parse sql).Gives ids parsed ids') (hfresh : ids.FreshFor ids' p.snapshot)
    (hdistinct : ∀ d ∈ parsed.tables, lastNamed? parsed.tables d.name = some d →
      d.columns.Pairwise fun a b => a.name.sameName b.name = false)
    (hagain : (Sql.parse sql).Gives second again second')
    (hnew : second.NewTo second' (Edit.Merge.merged p parsed.tables parsed.relations)) :
    ∃ ρ, Edit.Merge.Repeats p parsed.tables parsed.relations
      (Edit.Merge.merged p parsed.tables parsed.relations) ρ again.tables again.relations := by
  have hdeclares := Sql.parse_declares hparse
  have hdeclaresAgain := Sql.parse_declares hagain
  have hfirst := hdeclares.mergeable hp htyped hfresh
  obtain ⟨ρ, hsame⟩ := Sql.parse_again hparse hagain
  refine ⟨ρ, rfl, hfirst, ?_, hsame.tables, hsame.ends, fun r hr side => hdeclares.end_mem hr side,
    Sql.parse_settled hparse, Sql.parse_settled hagain, hdistinct, ?_⟩
  · exact hdeclaresAgain.mergeable (Edit.Merge.merged_sound hfirst.sound)
      (Edit.Merge.merged_isTyped hfirst.typed hfirst.declaredTyped) hnew.identifiers
  · intro id hid d hd
    have hunused : ∀ other ∈ d.id :: d.columnIds, other ≠ id := by
      -- identifiers of the second reading were drawn for it, and such are used nowhere
      intro other hother heq
      have hdrawn := hdeclaresAgain.ids.drawn other
        (List.mem_append_left _ (List.mem_flatMap.2 ⟨d, hd, hother⟩))
      obtain ⟨n, hlo, hhi, rfl⟩ := hdrawn
      rw [← heq] at hid
      exact hnew.references n hlo hhi hid
    exact ⟨hunused _ List.mem_cons_self, fun hmem => hunused id (List.mem_cons_of_mem _ hmem) rfl⟩

end Readings

/-! ## Applying a text in a designer -/

namespace Designer

variable {d : Designer} {p q : Project} {sql : Text} {parsed : Parsed} {ids ids' : IdSupply}

/-- The project and the supply after an edit that succeeds. -/
theorem perform_gives {α : Type} {edit : Edit α} {a : α} {next : Option Project}
    (h : (edit d.store.project).Gives d.store.ids (a, next) ids') :
    (d.perform edit).designer.store.project = next.getD d.store.project ∧
      (d.perform edit).designer.store.ids = ids' := by
  cases next with
  | none =>
      rw [perform_of_none h]
      exact ⟨rfl, rfl⟩
  | some q =>
      rw [perform_of_some h]
      exact ⟨rfl, rfl⟩

/-- An edit that puts nothing but the same project in place leaves the history as it is. -/
theorem InStep.perform_same {α : Type} (hd : d.InStep) {edit : Edit α}
    (hsame : ∀ a q ids', (edit d.store.project).Gives d.store.ids (a, some q) ids' →
      q = d.store.project) :
    (d.perform edit).designer.history = d.history ∧
      (d.perform edit).designer.store.project = d.store.project := by
  rcases hrun : (edit d.store.project).runFrom d.store.ids with ⟨failure | ⟨a, _ | q⟩, ids'⟩
  · rw [perform_of_error hrun]
    exact ⟨rfl, rfl⟩
  · rw [perform_of_none hrun]
    exact ⟨rfl, rfl⟩
  · rw [perform_of_some hrun, hd.listens, hsame a q ids' hrun]
    exact ⟨History.push_shown hd.shows, rfl⟩

/-- Only a text that declares a table puts a project in place. -/
theorem applyEdit_tables (h : (applyEdit sql p).Gives ids (parsed, some q) ids') :
    parsed.tables.isEmpty = false := by
  obtain ⟨parsed', mid, hparse, h⟩ := gives_bind.1 h
  split at h
  · obtain ⟨heq, -⟩ := gives_pure.1 h
    cases heq
  · next hempty =>
      obtain ⟨⟨a, next⟩, later, hmerge, h⟩ := gives_bind.1 h
      obtain ⟨heq, rfl⟩ := gives_pure.1 h
      cases heq
      exact Bool.eq_false_iff.2 hempty

/-- Applying a text that can be read and merged. -/
theorem applyEdit_of_parse (hparse : (Sql.parse sql).Gives ids parsed ids')
    (hmerge : (Edit.merge parsed.tables parsed.relations p).Gives ids' ((), some q) ids') :
    (applyEdit sql p).Gives ids (parsed, if parsed.tables.isEmpty then none else some q) ids' := by
  refine gives_bind.2 ⟨parsed, ids', hparse, ?_⟩
  split
  · exact gives_pure.2 ⟨rfl, rfl⟩
  · exact gives_bind.2 ⟨_, _, hmerge, gives_pure.2 ⟨rfl, rfl⟩⟩

/-- In step, applying a text again leaves history and project as they are, if merging another
reading of it into what the first application left changes nothing. -/
theorem InStep.apply_again (hd : d.InStep)
    (hparse : (Sql.parse sql).Gives d.store.ids parsed ids')
    (hmerge : (Edit.merge parsed.tables parsed.relations d.store.project).Gives ids'
      ((), some q) ids')
    {e : Designer} (he : e = d.after (.applySql sql))
    (hrepeat : ∀ again second', (Sql.parse sql).Gives e.store.ids again second' →
      (e.after (.applySql sql)).store.ids = second' → e.store.project = q →
        Edit.Merge.merged q again.tables again.relations = q) :
    (e.after (.applySql sql)).history = e.history ∧
      (e.after (.applySql sql)).store.project = e.store.project := by
  have hstep : e.InStep := by
    rw [he]
    exact hd.after _
  refine hstep.perform_same fun again r second' hagain => ?_
  obtain ⟨hparseAgain, -, rfl⟩ := applyEdit_gives hagain
  -- both readings declare a table, so the first one was merged
  have hnonempty : parsed.tables.isEmpty = false := by
    obtain ⟨ρ, hsame⟩ := Sql.parse_again hparse hparseAgain
    have hempty := congrArg List.isEmpty hsame.tables
    rwa [List.isEmpty_map, List.isEmpty_map, List.isEmpty_map, applyEdit_tables hagain,
      eq_comm] at hempty
  have hproject : e.store.project = q := by
    have hfirst := (perform_gives (applyEdit_of_parse hparse hmerge)).1
    rw [hnonempty] at hfirst
    rw [he]
    exact hfirst
  have hids := (perform_gives hagain).2
  rw [hproject]
  exact hrepeat again second' hparseAgain hids hproject

end Designer

/-- Merging a text a second time, under identifiers that are used nowhere, changes nothing, whatever
the project was; only in the declarations that count no column may be declared twice.  So applying
it again in a designer leaves the project and the history as they are, with all that was undone. -/
theorem merge_declared_again {p : Project} {sql : Text} {parsed : Parsed} {ids ids' : IdSupply}
    (hp : p.checkIntegrity = .ok ()) (htyped : ∀ t ∈ p.tables, t.IsTyped)
    (hparse : (Sql.parse sql).Gives ids parsed ids') (hfresh : ids.FreshFor ids' p.snapshot)
    (hdistinct : ∀ d ∈ parsed.tables, lastNamed? parsed.tables d.name = some d →
      d.columns.Pairwise fun a b => a.name.sameName b.name = false) :
    ∃ q, (∀ later, (Edit.merge parsed.tables parsed.relations p).Gives later ((), some q) later) ∧
      (∀ again second second', (Sql.parse sql).Gives second again second' →
        second.NewTo second' q →
          ∀ later, (Edit.merge again.tables again.relations q).Gives later ((), some q) later) ∧
      ∀ d e : Designer, d.IsReachable → d.store.project = p → d.store.ids = ids →
        e = d.after (.applySql sql) →
        e.store.ids.NewTo (e.after (.applySql sql)).store.ids e.store.project →
          (e.after (.applySql sql)).history = e.history ∧
            (e.after (.applySql sql)).store.project = e.store.project := by
  have hsound := checkIntegrity_eq_ok_iff.1 hp
  have hdeclares := Sql.parse_declares hparse
  have hmergeable := hdeclares.mergeable hsound htyped hfresh
  have hmerge := hmergeable.gives hsound hdeclares.sound
  refine ⟨Edit.Merge.merged p parsed.tables parsed.relations, hmerge, ?_, ?_⟩
  · intro again second second' hagain hnew later
    obtain ⟨ρ, hrepeats⟩ := Sql.repeats hsound htyped hparse hfresh hdistinct hagain hnew
    have hgives := hrepeats.second.gives (Edit.Merge.merged_sound hmergeable.sound)
      (Sql.parse_declares hagain).sound later
    rwa [hrepeats.merged_eq] at hgives
  · -- in the designer the second reading takes its identifiers from the designer's own supply
    rintro d e hreachable rfl rfl he hnew
    refine hreachable.inStep.apply_again hparse (hmerge ids') he
      fun again second' hagain hend hproject => ?_
    rw [hend, hproject] at hnew
    obtain ⟨ρ, hrepeats⟩ := Sql.repeats hsound htyped hparse hfresh hdistinct hagain hnew
    exact hrepeats.merged_eq

/-- A text that declares a table twice, with a key of each declaration and a key that is added
later, and a table of a new name. -/
def supersededDeclarations : Text :=
  "CREATE TABLE USERS (id INT REFERENCES users(ID)); " ++
    "CREATE TABLE users (ID INT PRIMARY KEY, boss INT REFERENCES Users(id)); " ++
    "CREATE TABLE logs (who INT REFERENCES users); " ++
    "ALTER TABLE Users ADD FOREIGN KEY (boss) REFERENCES logs(WHO);"

/-- Applied twice to a project that repeats names, this text changes something the first time
only. -/
theorem merge_declared_again_superseded :
    ∃ parsed, (Sql.parse supersededDeclarations).Gives ⟨21⟩ parsed ⟨32⟩ ∧
      ∃ q, (∀ later, (Edit.merge parsed.tables parsed.relations repeatedNames).Gives later
          ((), some q) later) ∧
        (∀ again second second', (Sql.parse supersededDeclarations).Gives second again second' →
          second.NewTo second' q →
            ∀ later, (Edit.merge again.tables again.relations q).Gives later ((), some q) later) ∧
        ∃ d e : Designer, d.IsReachable ∧ d.store.project = repeatedNames ∧
          e = d.after (.applySql supersededDeclarations) ∧
          e.history.past.length = 3 ∧
          (e.after (.applySql supersededDeclarations)).history = e.history ∧
          (e.after (.applySql supersededDeclarations)).store.project = e.store.project := by
  have hcheck : ((Sql.parse supersededDeclarations).runFrom ⟨21⟩).1.toOption.any (fun parsed =>
      decide (∀ d ∈ parsed.tables, lastNamed? parsed.tables d.name = some d →
        d.columns.Pairwise fun a b => a.name.sameName b.name = false)) = true ∧
          ((Sql.parse supersededDeclarations).runFrom ⟨21⟩).2 = ⟨32⟩ := by
    rw [supersededDeclarations]
    repeat rw [Text.ofString_ofList]
    decide +kernel
  obtain ⟨parsed, hparse, hdistinct⟩ := Minting.gives_of_any hcheck.1 hcheck.2
  obtain ⟨q, hmerge, hagain, hdesigner⟩ := merge_declared_again (p := repeatedNames)
    (by decide +kernel) (by decide +kernel) hparse (by decide +kernel) (of_decide_eq_true hdistinct)
  have start := @Designer.IsReachable.start {} ⟨20⟩ _ rfl
  obtain ⟨d, loaded, hd, hids, hnew, hpast⟩ : ∃ d : Designer, d.IsReachable ∧
      d.store.project = repeatedNames ∧ d.store.ids = ⟨21⟩ ∧
      (d.after (.applySql supersededDeclarations)).store.ids.NewTo
        ((d.after (.applySql supersededDeclarations)).after
          (.applySql supersededDeclarations)).store.ids
        (d.after (.applySql supersededDeclarations)).store.project ∧
      (d.after (.applySql supersededDeclarations)).history.past.length = 3 := by
    refine ⟨_, start.step (.execute (.load repeatedNames)), ?_⟩
    rw [supersededDeclarations]
    repeat rw [Text.ofString_ofList]
    decide +kernel
  obtain ⟨hhistory, hproject⟩ := hdesigner d _ loaded hd hids rfl hnew
  exact ⟨parsed, hparse, q, hmerge, hagain, d, _, loaded, hd, rfl, hpast, hhistory, hproject⟩

end SchemaDesk
