import SchemaDesk.Proofs.Edit.Merge
import SchemaDesk.Proofs.Edit.Sound
import SchemaDesk.Proofs.Sql.Declared

/-!
# What comes of a merge

Whatever could be appended to a project can be merged into it: if the tables and relations of both
sides are sound put side by side, then so is the merged project (`merged_sound`).  Relations that do
not resolve any more are dropped, so no end is left open, and synchronising makes the flags exact.

A merge looks names and identifiers up, and for this the names have to be text and the identifiers
keys.  A project whose fields have the types they are meant to have meets this, and so does what a
text declares.
-/

namespace SchemaDesk

/-! ## Fields of their types -/

theorem Value.isText_iff {v : Value} : v.isText = true ↔ ∃ s, v = .str s := by
  cases v <;> simp [isText]

/-- A field that may be left out. -/
def Value.IsOptionalText (v : Value) : Prop :=
  v = .null ∨ ∃ s, v = .str s

instance (v : Value) : Decidable v.IsOptionalText :=
  decidable_of_iff (v = .null ∨ v.isText = true) (or_congr_right Value.isText_iff)

theorem Value.IsOptionalText.isKey {v : Value} (h : v.IsOptionalText) : v.isKey = true := by
  rcases h with rfl | ⟨s, rfl⟩ <;> rfl

/-- A column whose identifiers and name are text. -/
structure Column.IsTyped (c : Column) : Prop where
  id : ∃ s, c.id = .str s
  name : ∃ s, c.name = .str s
  referencesTableId : c.referencesTableId.IsOptionalText
  referencesColumnId : c.referencesColumnId.IsOptionalText

instance (c : Column) : Decidable c.IsTyped :=
  decidable_of_iff
    (c.id.isText = true ∧ c.name.isText = true ∧ c.referencesTableId.IsOptionalText ∧
      c.referencesColumnId.IsOptionalText)
    ⟨fun h => ⟨Value.isText_iff.1 h.1, Value.isText_iff.1 h.2.1, h.2.2.1, h.2.2.2⟩,
      fun h => ⟨Value.isText_iff.2 h.1, Value.isText_iff.2 h.2, h.3, h.4⟩⟩

/-- A table whose identifiers and names are text. -/
structure Table.IsTyped (t : Table) : Prop where
  id : ∃ s, t.id = .str s
  name : ∃ s, t.name = .str s
  columns : ∀ c ∈ t.columns, c.IsTyped

instance (t : Table) : Decidable t.IsTyped :=
  decidable_of_iff (t.id.isText = true ∧ t.name.isText = true ∧ ∀ c ∈ t.columns, c.IsTyped)
    ⟨fun h => ⟨Value.isText_iff.1 h.1, Value.isText_iff.1 h.2.1, h.2.2⟩,
      fun h => ⟨Value.isText_iff.2 h.1, Value.isText_iff.2 h.2, h.3⟩⟩

/-- Declared tables are typed. -/
theorem Sql.Declares.isTyped {before after : IdSupply} {tables : List Table}
    {relations : List Relation} (h : Sql.Declares before after tables relations) :
    ∀ t ∈ tables, t.IsTyped := by
  intro t ht
  refine ⟨h.tableId ht, h.tableNames t ht, fun c hc => ?_⟩
  exact ⟨h.columnId ht (List.mem_map_of_mem hc), h.columnNames t ht c hc, (h.hints t ht c hc).1,
    (h.hints t ht c hc).2⟩

/-! ## Resolution -/

theorem hasColumn_of_holdsColumn {tables : List Table} {t c : Value}
    (h : holdsColumn tables t c = true) : HasColumn tables t c := by
  rw [holdsColumn, lastTable?] at h
  cases hfind : tables.reverse.find? (·.id.same t) with
  | none => simp [hfind] at h
  | some u =>
      rw [hfind, Option.any_some, List.any_eq_true] at h
      obtain ⟨d, hd, hsame⟩ := h
      have hid := List.find?_some hfind
      refine ⟨u, List.mem_reverse.1 (List.mem_of_find?_eq_some hfind), Value.same_iff.1 hid, ?_⟩
      rw [← Value.same_iff.1 hsame]
      exact List.mem_map_of_mem (List.mem_map_of_mem hd)

/-- In tables of different identifiers a column that is there is found. -/
theorem holdsColumn_of_hasColumn {tables : List Table} {t c : Value}
    (hids : (tables.map (·.id.canon)).Nodup) (h : HasColumn tables t c) :
    holdsColumn tables t c = true := by
  obtain ⟨u, hu, hid, hcolumn⟩ := h
  rw [holdsColumn, lastTable?_eq_some hids hu hid, Option.any_some, List.any_eq_true]
  obtain ⟨id, hid, hcanon⟩ := List.mem_map.1 hcolumn
  obtain ⟨d, hd, rfl⟩ := List.mem_map.1 hid
  exact ⟨d, hd, Value.same_iff.2 hcanon⟩

/-- Every relation of a sound project resolves. -/
theorem Sound.resolvesIn {tables : List Table} {relations : List Relation}
    (h : Sound tables relations) {r : Relation} (hr : r ∈ relations) :
    r.resolvesIn tables = true := by
  rw [Relation.resolvesIn, Bool.and_eq_true]
  constructor
  · exact holdsColumn_of_hasColumn h.tableIds_nodup (h.ends r hr .source)
  · exact holdsColumn_of_hasColumn h.tableIds_nodup (h.ends r hr .target)

/-- Both ends of a relation that resolves are there. -/
theorem Relation.hasColumn_of_resolvesIn {tables : List Table} {r : Relation}
    (h : r.resolvesIn tables = true) (side : Side) :
    HasColumn tables (r.tableId side) (r.columnId side) := by
  rw [resolvesIn, Bool.and_eq_true] at h
  cases side with
  | source => exact hasColumn_of_holdsColumn h.1
  | target => exact hasColumn_of_holdsColumn h.2

/-- The identifiers of a column of typed tables are text, however they are written. -/
theorem HasColumn.isText {tables : List Table} {t c : Value} (h : HasColumn tables t c)
    (htyped : ∀ t ∈ tables, t.IsTyped) : (∃ s, t = .str s) ∧ ∃ s, c = .str s := by
  obtain ⟨u, hu, htable, hcolumn⟩ := h
  obtain ⟨id, hid, hcanon⟩ := List.mem_map.1 hcolumn
  obtain ⟨d, hd, rfl⟩ := List.mem_map.1 hid
  have hutyped := htyped u hu
  rw [← Value.eq_of_canon hutyped.id htable, ← Value.eq_of_canon (hutyped.columns d hd).id hcanon]
  exact ⟨hutyped.id, (hutyped.columns d hd).id⟩

namespace Flags

/-- After synchronising, a column repeats the target of the last relation that starts at it. -/
theorem sync_hints {tables : List Table} {relations : List Relation} {t : Table}
    (ht : t ∈ sync relations tables) {c : Column} (hc : c ∈ t.columns) {r : Relation}
    (hr : lastFrom? relations t.id c.id = some r) :
    c.referencesTableId.canon = r.targetTableId.canon ∧
      c.referencesColumnId.canon = r.targetColumnId.canon := by
  rw [sync_eq_mapColumns] at ht
  obtain ⟨u, hu, rfl⟩ := mem_mapColumns.1 ht
  obtain ⟨d, hd, rfl⟩ := List.mem_map.1 hc
  simp only [synced_id] at hr
  rw [synced, marked, unflagged_id, hr]
  simp only [flagged]
  split
  · next hsame =>
      rw [Bool.and_eq_true, Bool.and_eq_true] at hsame
      exact ⟨Value.canon_of_equals hsame.1.2, Value.canon_of_equals hsame.2⟩
  · exact ⟨rfl, rfl⟩

end Flags

namespace Edit.Merge

/-! ## The relations of a merge -/

/-- Of the declared relations some are added at the end, all of which resolve. -/
theorem foldl_addRelation (tables : List Table) (kept declared : List Relation) :
    ∃ added, declared.foldl (addRelation tables) kept = kept ++ added ∧
      added.Sublist declared ∧ ∀ r ∈ added, r.resolvesIn tables = true := by
  induction declared generalizing kept with
  | nil => exact ⟨[], by simp, List.Sublist.refl _, by simp⟩
  | cons r declared ih =>
      rw [List.foldl_cons, addRelation]
      split
      · obtain ⟨added, heq, hsub, hresolves⟩ := ih kept
        exact ⟨added, heq, hsub.cons _, hresolves⟩
      · next hadd =>
          rw [Bool.or_eq_true, not_or, Bool.not_eq_true', Bool.not_eq_false] at hadd
          obtain ⟨added, heq, hsub, hresolves⟩ := ih (kept ++ [r])
          refine ⟨r :: added, ?_, hsub.cons_cons _, ?_⟩
          · rw [heq, List.append_assoc, List.singleton_append]
          · exact List.forall_mem_cons.2 ⟨hadd.2, hresolves⟩

/-! ## Soundness -/

/-- The tables of a merge before their references are renamed. -/
def joinedTables (p : Project) (declared : List Table) : List Table :=
  joinAll (lastDeclarations declared) p.tables ++ newTables (lastDeclarations declared) p.tables

/-- The merged tables have the shapes of the joined ones. -/
theorem merged_shape (p : Project) (declared : List Table) (relations : List Relation) :
    (merged p declared relations).tables.map Table.shape =
      (joinedTables p declared).map Table.shape := by
  rw [merged, Joined.into, Flags.shape_sync, List.map_map]
  refine List.map_congr_left fun t _ => ?_
  simp [Table.shape, Table.columnIds, renameReference, Function.comp_def]

/-- The relations of the project that still resolve come first, then declared ones under their own
identifiers. -/
theorem merged_relations (p : Project) (declared : List Table) (relations : List Relation) :
    ((merged p declared relations).relations.map Relation.id).Sublist
        ((p.relations ++ relations).map Relation.id) ∧
      ∀ r ∈ (merged p declared relations).relations, ∀ side,
        HasColumn (joinedTables p declared) (r.tableId side) (r.columnId side) := by
  rw [merged, Joined.into]
  set j := joined (lastDeclarations declared) p.tables with hj
  set tables := j.tables.map fun t =>
    { t with columns := t.columns.map (renameReference j.tableIds j.columnIds) } with htables
  have hshape : tables.map Table.shape = (joinedTables p declared).map Table.shape := by
    rw [htables, List.map_map]
    refine List.map_congr_left fun t _ => ?_
    simp [Table.shape, Table.columnIds, renameReference, Function.comp_def]
  obtain ⟨added, heq, hsub, hresolves⟩ := foldl_addRelation tables
    (p.relations.filter (·.resolvesIn tables))
    (relations.map (renameEnds j.tableIds j.columnIds))
  simp only [heq]
  constructor
  · rw [List.map_append, List.map_append]
    refine (List.filter_sublist.map _).append ?_
    have hids : (relations.map (renameEnds j.tableIds j.columnIds)).map Relation.id =
        relations.map Relation.id := by
      rw [List.map_map]
      rfl
    rw [← hids]
    exact hsub.map _
  · intro r hr side
    rw [hasColumn_iff_shape, ← hshape, ← hasColumn_iff_shape]
    rcases List.mem_append.1 hr with hr | hr
    · exact r.hasColumn_of_resolvesIn (List.mem_filter.1 hr).2 side
    · exact r.hasColumn_of_resolvesIn (hresolves r hr) side

theorem joinedTables_ids (p : Project) (declared : List Table) :
    ((joinedTables p declared).map Table.id).Sublist
      ((p.tables ++ declared).map Table.id) := by
  rw [joinedTables, List.map_append, joinAll_ids, List.map_append]
  exact (List.Sublist.refl _).append
    ((List.filter_sublist.trans (lastDeclarations_sublist declared)).map _)

/-- What can be put side by side can be merged. -/
theorem merged_sound {p : Project} {declared : List Table} {relations : List Relation}
    (h : Sound (p.tables ++ declared) (p.relations ++ relations)) :
    (merged p declared relations).IsSound := by
  obtain ⟨hrelations, hends⟩ := merged_relations p declared relations
  have htables := joinedTables_ids p declared
  -- joining only moves column identifiers, so they are still among those of both sides
  have hcolumns : List.Subperm ((joinedTables p declared).flatMap Table.columnIds)
      ((p.tables ++ declared).flatMap Table.columnIds) := by
    refine (columnIds_subperm (lastDeclarations declared) p.tables).trans ?_
    rw [List.flatMap_append]
    exact (List.subperm_append_left _).2
      ((lastDeclarations_sublist declared).flatMap _).subperm
  refine Sound.congr_shape (merged_shape p declared relations) ⟨?_, ?_, ?_, hends⟩
  · intro id hid
    refine h.keys id ?_
    rw [List.mem_append, List.mem_append] at hid ⊢
    exact hid.imp (Or.imp (fun h => htables.subset h) fun h => hcolumns.subset h)
      fun h => hrelations.subset h
  · exact h.entities.sublist ((htables.append hrelations).map _)
  · obtain ⟨ids, hperm, hsub⟩ := subperm_map hcolumns Value.canon
    exact hperm.nodup_iff.1 (h.columns.sublist hsub)

/-! ## Types -/

theorem mem_pairColumns {existing earlier declared : List Column} {pair : Column × Option Column}
    (h : pair ∈ pairColumns existing earlier declared) :
    pair.1 ∈ declared ∧ ∀ prior, pair.2 = some prior → prior ∈ existing := by
  induction declared generalizing earlier with
  | nil => exact absurd h List.not_mem_nil
  | cons c declared ih =>
      rcases List.mem_cons.1 h with rfl | h
      · refine ⟨List.mem_cons_self, fun prior hprior => ?_⟩
        simp only at hprior
        split at hprior
        · cases hprior
        · exact List.mem_reverse.1 (List.mem_of_find?_eq_some hprior)
      · exact ⟨List.mem_cons_of_mem _ (ih h).1, (ih h).2⟩

/-- Joining typed tables gives a typed table. -/
theorem join_isTyped {existing declared : Table} (h : existing.IsTyped) (h' : declared.IsTyped) :
    (join existing declared).IsTyped := by
  refine ⟨h.id, h.name, fun c hc => ?_⟩
  obtain ⟨pair, hpair, rfl⟩ := List.mem_map.1 hc
  obtain ⟨hdeclared, hprior⟩ := mem_pairColumns hpair
  have hc := h'.columns _ hdeclared
  rw [joinedColumn]
  cases hcase : pair.2 with
  | none => exact hc
  | some prior => exact ⟨(h.columns _ (hprior prior hcase)).id, hc.2, hc.3, hc.4⟩

theorem mem_joinAll {declared tables : List Table} {t : Table} (h : t ∈ joinAll declared tables) :
    t ∈ tables ∨ ∃ u ∈ tables, ∃ d ∈ declared, t = join u d := by
  induction tables with
  | nil => exact absurd h List.not_mem_nil
  | cons u tables ih =>
      rcases List.mem_cons.1 h with rfl | h
      · split
        · exact .inl List.mem_cons_self
        · cases hfind : declared.find? (·.name.sameName u.name) with
          | none => exact .inl List.mem_cons_self
          | some d =>
              exact .inr ⟨u, List.mem_cons_self, d, List.mem_of_find?_eq_some hfind, rfl⟩
      · rcases ih h with h | ⟨v, hv, d, hd, rfl⟩
        · exact .inl (List.mem_cons_of_mem _ h)
        · exact .inr ⟨v, List.mem_cons_of_mem _ hv, d, hd, rfl⟩

theorem joinedTables_isTyped {p : Project} {declared : List Table}
    (hp : ∀ t ∈ p.tables, t.IsTyped) (hdeclared : ∀ t ∈ declared, t.IsTyped) :
    ∀ t ∈ joinedTables p declared, t.IsTyped := by
  intro t ht
  rcases List.mem_append.1 ht with ht | ht
  · rcases mem_joinAll ht with ht | ⟨u, hu, d, hd, rfl⟩
    · exact hp t ht
    · exact join_isTyped (hp u hu) (hdeclared d (mem_lastDeclarations hd))
  · exact hdeclared t (mem_lastDeclarations (List.mem_filter.1 ht).1)

/-! ## What a merge needs -/

theorem requireText_eq_ok {names : List Value} :
    requireText names = .ok () ↔ ∀ name ∈ names, name.isText = true := by
  rw [requireText, ← List.all_eq_true]
  split <;> simp_all

theorem checkJoin_eq_ok {tables : List Table} {declared : Table}
    (hnames : ∀ t ∈ tables, ∀ c ∈ t.columns, ∃ s, c.name = .str s) (hdeclared : declared.IsTyped) :
    checkJoin tables declared = .ok () := by
  rw [checkJoin]
  cases hpartner : partner? tables declared with
  | none => rfl
  | some t =>
      have ht := hnames t (List.mem_reverse.1 (List.mem_of_find?_eq_some hpartner))
      refine Except.bind_eq_ok.2 ⟨(), requireText_eq_ok.2 ?_, ?_⟩
      · intro name hname
        obtain ⟨c, hc, rfl⟩ := List.mem_map.1 hname
        exact Value.isText_iff.2 (ht c hc)
      · refine Except.bind_eq_ok.2 ⟨(), forM_eq_ok.2 fun pair hpair => ?_, ?_⟩
        · have hc := hdeclared.columns _ (mem_pairColumns hpair).1
          obtain ⟨s, hs⟩ := hc.name
          obtain ⟨i, hi⟩ := hc.id
          refine Except.bind_eq_ok.2 ⟨(), requireText_eq_ok.2 ?_, requireKeys_eq_ok.2 ?_⟩
          · simp [hs, Value.isText]
          · rw [hi]
            split <;> simp [Value.isKey]
        · obtain ⟨i, hi⟩ := hdeclared.id
          rw [hi]
          rfl

/-- The ends of a relation of a sound project can be looked up. -/
theorem checkEnds_eq_ok {tables : List Table} {r : Relation}
    (h : ∀ id ∈ r.endIds, id.isKey = true) : checkEnds tables r = .ok () := by
  simp only [Relation.endIds, List.forall_mem_cons] at h
  obtain ⟨hst, hsc, htt, htc, -⟩ := h
  refine Except.bind_eq_ok.2 ⟨(), requireKeys_eq_ok.2 (by simp [hst, htt]), ?_⟩
  cases lastTable? tables r.sourceTableId with
  | none => rfl
  | some source =>
      cases lastTable? tables r.targetTableId with
      | none => rfl
      | some target =>
          refine Except.bind_eq_ok.2 ⟨(), requireKeys_eq_ok.2 (by simp [hsc]), ?_⟩
          refine requireKeys_eq_ok.2 ?_
          split <;> simp [htc]

theorem endIds_isKey {tables : List Table} {relations : List Relation} (h : Sound tables relations)
    {r : Relation} (hr : r ∈ relations) : ∀ id ∈ r.endIds, id.isKey = true := by
  have hside : ∀ side, (r.tableId side).isKey = true ∧ (r.columnId side).isKey = true := by
    intro side
    obtain ⟨t, ht, hid, hcol⟩ := h.ends r hr side
    obtain ⟨c, hc, hcid⟩ := List.mem_map.1 hcol
    rw [← Value.isKey_of_canon hid, ← Value.isKey_of_canon hcid]
    exact ⟨h.tableId_isKey ht, h.columnId_isKey ht hc⟩
  simp only [Relation.endIds, List.forall_mem_cons]
  exact ⟨(hside .source).1, (hside .source).2, (hside .target).1, (hside .target).2, by simp⟩

/-- What a merge looks up passes if the names are text, the declarations can be joined, and all that
columns and relations refer to can be looked up. -/
theorem check_of_parts {p : Project} {declared : List Table} {relations : List Relation}
    (hnames : ∀ t ∈ declared ++ p.tables, ∃ s, t.name = .str s)
    (hjoin : ∀ d ∈ lastDeclarations declared, checkJoin p.tables d = .ok ())
    (hreferences : ∀ id ∈ references (joinedTables p declared), id.isKey = true)
    (hp : p.IsSound) (hsound : Sound declared relations) :
    check p declared relations = .ok () := by
  refine Except.bind_eq_ok.2 ⟨(), requireText_eq_ok.2 ?_, ?_⟩
  · intro name hname
    rw [← List.map_append] at hname
    obtain ⟨t, ht, rfl⟩ := List.mem_map.1 hname
    exact Value.isText_iff.2 (hnames t ht)
  refine Except.bind_eq_ok.2 ⟨(), forM_eq_ok.2 hjoin, ?_⟩
  refine Except.bind_eq_ok.2 ⟨(), requireKeys_eq_ok.2 hreferences, ?_⟩
  refine Except.bind_eq_ok.2 ⟨(), forM_eq_ok.2 fun r hr => ?_, requireKeys_eq_ok.2 ?_⟩
  · exact checkEnds_eq_ok (endIds_isKey hp hr)
  · intro id hid
    obtain ⟨r, hr, hid⟩ := List.mem_flatMap.1 hid
    exact endIds_isKey hsound hr id hid

/-- Typed tables and sound relations pass all that a merge looks up. -/
theorem check_eq_ok {p : Project} {declared : List Table} {relations : List Relation}
    (htyped : ∀ t ∈ p.tables, t.IsTyped) (hdeclared : ∀ t ∈ declared, t.IsTyped)
    (hp : p.IsSound) (hsound : Sound declared relations) :
    check p declared relations = .ok () := by
  apply check_of_parts _ _ _ hp hsound
  · intro t ht
    rcases List.mem_append.1 ht with ht | ht
    · exact (hdeclared t ht).name
    · exact (htyped t ht).name
  · intro d hd
    exact checkJoin_eq_ok (fun t ht c hc => ((htyped t ht).columns c hc).name)
      (hdeclared d (mem_lastDeclarations hd))
  · intro id hid
    obtain ⟨t, ht, hid⟩ := List.mem_flatMap.1 hid
    obtain ⟨c, hc, hid⟩ := List.mem_flatMap.1 hid
    have hc := (joinedTables_isTyped htyped hdeclared t ht).columns c hc
    rcases List.mem_cons.1 hid with rfl | hid
    · exact hc.referencesTableId.isKey
    · rw [List.mem_singleton.1 hid]
      exact hc.referencesColumnId.isKey

end Edit.Merge

/-! ## Merging what a text declares -/

section Declared

variable {p : Project} {ids ids' : IdSupply} {tables : List Table} {relations : List Relation}

/-- What a text declares can be put beside a project that uses none of its identifiers. -/
theorem Sql.Declares.beside (h : Sql.Declares ids ids' tables relations) (hp : p.IsSound)
    (hfresh : ids.FreshFor ids' p.snapshot) :
    Sound (p.tables ++ tables) (p.relations ++ relations) := by
  have hapart : ∀ a ∈ p.snapshot.identifiers,
      ∀ b ∈ tables.map Table.id ++ tables.flatMap Table.columnIds ++ relations.map Relation.id,
        a.canon ≠ b.canon := by
    intro a ha b hb heq
    obtain ⟨n, hlo, hhi, rfl⟩ := h.allIds.drawn b hb
    rw [Value.canon_str, Value.canon_eq_str_iff] at heq
    rw [heq] at ha
    exact hfresh n hlo hhi ha
  refine hp.append h.sound ?_ ?_
  · intro a ha b hb
    refine hapart a ?_ b ?_
    · simp only [Snapshot.identifiers, Project.snapshot, List.mem_append] at ha ⊢
      exact ha.imp .inl id
    · simp only [List.mem_append] at hb ⊢
      exact hb.imp .inl id
  · intro a ha b hb
    exact hapart a (List.mem_append_left _ (List.mem_append_right _ ha)) b
      (List.mem_append_left _ (List.mem_append_right _ hb))

/-- Merging what a text declares, under identifiers that the project does not use, always succeeds:
the result passes the check, and each of its columns is flagged exactly when a relation starts there
and repeats the target of the last one that does. -/
theorem merge_declared_safe {sql : Text} {parsed : Parsed} (hp : p.checkIntegrity = .ok ())
    (htyped : ∀ t ∈ p.tables, t.IsTyped) (hparse : (Sql.parse sql).Gives ids parsed ids')
    (hfresh : ids.FreshFor ids' p.snapshot) (later : IdSupply) :
    ∃ q, (Edit.merge parsed.tables parsed.relations p).Gives later ((), some q) later ∧
      q.checkIntegrity = .ok () ∧
      ∀ t ∈ q.tables, ∀ c ∈ t.columns,
        (c.isForeignKey.isTruthy = true ↔ ∃ r ∈ q.relations, r.startsAt t.id c.id = true) ∧
        ∀ r, Flags.lastFrom? q.relations t.id c.id = some r →
          c.referencesTableId = r.targetTableId ∧ c.referencesColumnId = r.targetColumnId := by
  have hp := checkIntegrity_eq_ok_iff.1 hp
  have hdeclares := Sql.parse_declares hparse
  have hsound := Edit.Merge.merged_sound (hdeclares.beside hp hfresh)
  refine ⟨_, Edit.merge_gives.2 ⟨?_, hsound, rfl, rfl⟩, checkIntegrity_eq_ok_iff.2 hsound, ?_⟩
  · exact Edit.Merge.check_eq_ok htyped hdeclares.isTyped hp hdeclares.sound
  intro t ht c hc
  refine ⟨Flags.sync_exact t ht c hc, fun r hr => ?_⟩
  obtain ⟨htable, hcolumn⟩ := Flags.sync_hints ht hc hr
  -- The target is a column of the result, so its identifiers are text and can only be repeated.
  obtain ⟨hmem, -⟩ := Flags.lastFrom?_eq_some hr
  obtain ⟨u, hu, huid, hucol⟩ :=
    (Edit.Merge.merged_relations p parsed.tables parsed.relations).2 r hmem .target
  have hutyped := Edit.Merge.joinedTables_isTyped htyped hdeclares.isTyped u hu
  obtain ⟨i, hi⟩ := hutyped.id
  obtain ⟨w, hw, hwcanon⟩ := List.mem_map.1 hucol
  obtain ⟨d, hd, rfl⟩ := List.mem_map.1 hw
  obtain ⟨j, hj⟩ := (hutyped.columns d hd).id
  rw [hi, Value.canon_str] at huid
  rw [hj, Value.canon_str] at hwcanon
  have htargetTable : r.targetTableId = .str i := Value.eq_str_of_canon huid.symm
  have htargetColumn : r.targetColumnId = .str j := Value.eq_str_of_canon hwcanon.symm
  rw [htargetTable, htargetColumn]
  rw [htargetTable, Value.canon_str] at htable
  rw [htargetColumn, Value.canon_str] at hcolumn
  exact ⟨Value.eq_str_of_canon htable, Value.eq_str_of_canon hcolumn⟩

/-- A project that repeats names up to letter case, has a stale flag and a relation between its
tables of the same name. -/
def repeatedNames : Project :=
  { id := "p", tables :=
      [{ id := "t1", name := "users", columns := [{ id := "c1", name := "id" }] },
        { id := "t2", name := "Users", columns :=
          [{ id := "c2", name := "ID" },
            { id := "c3", name := "iD", isForeignKey := true, referencesTableId := "gone" }] }],
    relations :=
      [{ id := "r1", sourceTableId := "t1", sourceColumnId := "c1", targetTableId := "t2",
         targetColumnId := "c3" }] }

/-- A text that declares a table twice, the second time with a repeated column and with a key that
refers to the table itself. -/
def repeatedDeclarations : Text :=
  "CREATE TABLE USERS (id INT); " ++
    "CREATE TABLE users (ID INT PRIMARY KEY, id INT, boss INT REFERENCES Users(id));"

/-- Names that are repeated on both sides do no harm. -/
theorem merge_declared_safe_repeated_names :
    ∃ parsed, (Sql.parse repeatedDeclarations).Gives ⟨20⟩ parsed ⟨27⟩ ∧
      ∃ q, (Edit.merge parsed.tables parsed.relations repeatedNames).Gives {} ((), some q) {} ∧
        q.checkIntegrity = .ok () ∧
        ∀ t ∈ q.tables, ∀ c ∈ t.columns,
          (c.isForeignKey.isTruthy = true ↔ ∃ r ∈ q.relations, r.startsAt t.id c.id = true) ∧
          ∀ r, Flags.lastFrom? q.relations t.id c.id = some r →
            c.referencesTableId = r.targetTableId ∧ c.referencesColumnId = r.targetColumnId := by
  have hread : ((Sql.parse repeatedDeclarations).runFrom ⟨20⟩).1.isOk = true ∧
      ((Sql.parse repeatedDeclarations).runFrom ⟨20⟩).2 = ⟨27⟩ := by
    rw [repeatedDeclarations]
    repeat rw [Text.ofString_ofList]
    decide +kernel
  obtain ⟨parsed, hparse⟩ := Minting.gives_of_isOk hread.1 hread.2
  exact ⟨parsed, hparse, merge_declared_safe (by decide +kernel) (by decide +kernel) hparse
    (by decide +kernel) {}⟩

end Declared

end SchemaDesk
