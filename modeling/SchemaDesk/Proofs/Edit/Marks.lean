import SchemaDesk.Proofs.Edit.Identities

/-!
# Marks under a merge

The marks of a merged column come from three places: from the column itself, with its reference
renamed, from the last relation that starts there, and from the declaration.  All of them are text
or nothing, so what is merged can be merged into again (`merged_isTyped`).  Of a declared column
nothing is left of the marks that it was read with: after the merge they are those of the relations
alone (`finished_of_settled`).
-/

namespace SchemaDesk.Edit.Merge

variable {p : Project} {declared : List Table} {relations : List Relation}

/-! ## Merged tables are typed -/

/-- The ends of the relations of a merge are text. -/
theorem merged_end_isText (htyped : ∀ t ∈ p.tables, t.IsTyped)
    (hdeclared : ∀ d ∈ declared, d.IsTyped) {r : Relation}
    (hr : r ∈ (merged p declared relations).relations) (side : Side) :
    (∃ s, r.tableId side = .str s) ∧ ∃ s, r.columnId side = .str s :=
  ((merged_relations p declared relations).2 r hr side).isText
    (joinedTables_isTyped htyped hdeclared)

theorem merged_textTargets (htyped : ∀ t ∈ p.tables, t.IsTyped)
    (hdeclared : ∀ d ∈ declared, d.IsTyped) :
    Flags.HasTextTargets (merged p declared relations).relations :=
  fun _ hr => merged_end_isText htyped hdeclared hr .target

/-- What takes the place of an identifier is one of the new ones, or the identifier itself. -/
theorem renamed_cases (changes : Renaming) (id : Value) :
    renamed changes id = id ∨ ∃ change ∈ changes, renamed changes id = change.2 := by
  rw [renamed]
  cases hfind : changes.reverse.find? (·.1.same id) with
  | none => exact .inl rfl
  | some change =>
      exact .inr ⟨change, List.mem_reverse.1 (List.mem_of_find?_eq_some hfind), rfl⟩

theorem renamed_isOptionalText {changes : Renaming} (h : ∀ change ∈ changes, ∃ s, change.2 = .str s)
    {id : Value} (hid : id.IsOptionalText) : (renamed changes id).IsOptionalText := by
  rcases renamed_cases changes id with heq | ⟨change, hchange, heq⟩
  · rw [heq]
    exact hid
  · rw [heq]
    exact .inr (h change hchange)

theorem tableMoves_isText (htyped : ∀ t ∈ p.tables, t.IsTyped) :
    ∀ change ∈ tableMoves p declared, ∃ s, change.2 = .str s := by
  intro change hchange
  obtain ⟨d, -, hvalue⟩ := List.mem_filterMap.1 hchange
  obtain ⟨t, ht, rfl⟩ := Option.map_eq_some_iff.1 hvalue
  exact (htyped t (lastNamed?_eq_some ht).1).id

theorem columnMoves_isText (htyped : ∀ t ∈ p.tables, t.IsTyped) :
    ∀ change ∈ columnMoves p declared, ∃ s, change.2 = .str s := by
  intro change hchange
  obtain ⟨d, -, hchange⟩ := List.mem_flatMap.1 hchange
  rw [columnIdsOf] at hchange
  cases hpartner : partner? p.tables d with
  | none => simp [hpartner] at hchange
  | some t =>
      rw [hpartner] at hchange
      obtain ⟨pair, hpair, hvalue⟩ := List.mem_filterMap.1 hchange
      obtain ⟨prior, hprior, rfl⟩ := Option.map_eq_some_iff.1 hvalue
      have ht := htyped t (lastNamed?_eq_some hpartner).1
      exact (ht.columns prior ((mem_pairColumns hpair).2 prior hprior)).id

/-- The merged tables are typed again. -/
theorem merged_isTyped (htyped : ∀ t ∈ p.tables, t.IsTyped)
    (hdeclared : ∀ d ∈ declared, d.IsTyped) :
    ∀ t ∈ (merged p declared relations).tables, t.IsTyped := by
  intro t ht
  rw [merged_tables] at ht
  obtain ⟨u, hu, rfl⟩ := List.mem_map.1 ht
  have hutyped := joinedTables_isTyped htyped hdeclared u hu
  refine ⟨hutyped.id, hutyped.name, fun c hc => ?_⟩
  obtain ⟨d, hd, rfl⟩ := List.mem_map.1 hc
  have hdtyped := hutyped.columns d hd
  have htargets : Flags.HasTextTargets (merged p declared relations).relations :=
    merged_textTargets htyped hdeclared
  have hreferences := Flags.synced_references (P := Value.IsOptionalText) (t := u.id)
    (c := renameReference (tableMoves p declared) (columnMoves p declared) d) (.inl rfl)
    ⟨renamed_isOptionalText (tableMoves_isText htyped) hdtyped.referencesTableId,
      renamed_isOptionalText (columnMoves_isText htyped) hdtyped.referencesColumnId⟩
    fun r hr => (htargets r hr).imp .inr .inr
  refine ⟨?_, ?_, hreferences.1, hreferences.2⟩
  · rw [finished_id]
    exact hdtyped.id
  · rw [finished_name]
    exact hdtyped.name

/-! ## Settled columns -/

theorem isSettled_withId {c : Column} (h : c.IsSettled) (id : Value) :
    ({ c with id := id } : Column).IsSettled :=
  h.imp (fun hflag => hflag) fun hcleared => congrArg (fun c => { c with id := id }) hcleared

/-- A reference to nothing is renamed to nothing. -/
theorem renameReference_isSettled (hdeclared : ∀ d ∈ declared, d.IsTyped) {c : Column}
    (hc : c.IsSettled) :
    (renameReference (tableMoves p declared) (columnMoves p declared) c).IsSettled := by
  have htable : renamed (tableMoves p declared) .null = .null := by
    refine tableMoves_other hdeclared fun d hd hnull => ?_
    obtain ⟨s, hs⟩ := (hdeclared d (mem_lastDeclarations hd)).id
    cases hs.symm.trans hnull
  have hcolumn : renamed (columnMoves p declared) .null = .null := by
    refine columnMoves_other hdeclared fun d hd hnull => ?_
    obtain ⟨c, hc, hid⟩ := List.mem_map.1 hnull
    obtain ⟨s, hs⟩ := ((hdeclared d (mem_lastDeclarations hd)).columns c hc).id
    cases hs.symm.trans hid
  refine hc.imp (fun hflag => hflag) fun hcleared => ?_
  rw [← hcleared]
  simp only [Flags.cleared, renameReference, htable, hcolumn]

/-- A merge marks a column that is settled by its relations alone. -/
theorem finished_of_settled (htyped : ∀ t ∈ p.tables, t.IsTyped)
    (hdeclared : ∀ d ∈ declared, d.IsTyped) {c : Column} (hc : c.IsSettled) (t : Value) :
    finished p declared relations t c =
      Flags.hinted (merged p declared relations).relations t (Flags.cleared c) := by
  rw [finished, Flags.synced_of_settled (merged_textTargets htyped hdeclared)
    (renameReference_isSettled hdeclared hc)]
  rfl

theorem map_finished_of_settled (h : Mergeable p declared relations) {cs : List Column}
    (hcs : ∀ c ∈ cs, c.IsSettled) (t : Value) :
    cs.map (finished p declared relations t) =
      (cs.map Flags.cleared).map (Flags.hinted (merged p declared relations).relations t) := by
  rw [List.map_map]
  exact List.map_congr_left fun c hc => finished_of_settled h.typed h.declaredTyped (hcs c hc) t

theorem takenColumns_isSettled {existing declared : List Column} (h : ∀ c ∈ declared, c.IsSettled) :
    ∀ c ∈ takenColumns existing declared, c.IsSettled := by
  intro c hc
  obtain ⟨i, hi, rfl⟩ := List.mem_mapIdx.1 hc
  exact isSettled_withId (h _ (List.getElem_mem hi)) _

theorem placed_isSettled {tables : List Table} {d : Table} (h : ∀ c ∈ d.columns, c.IsSettled) :
    ∀ c ∈ (placed tables d).columns, c.IsSettled := by
  rw [placed]
  cases lastNamed? tables d.name with
  | some t => exact takenColumns_isSettled h
  | none => exact h

end SchemaDesk.Edit.Merge
