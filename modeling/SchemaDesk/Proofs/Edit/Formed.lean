import SchemaDesk.Proofs.Edit.Identities
import SchemaDesk.Proofs.Edit.Typed
import SchemaDesk.Proofs.Text.Trimmed

/-!
# What edits make up a schema of

Edits give every table a name and a first column, take only names that can stand, and never take the
last column of a table away.  What else can be said of all columns and relations depends on what is
brought in, so it is a parameter here: `Edit.Lasting` says which properties of single columns and
relations no edit spoils by itself, and `Command.keeps_formed` that a command keeps them of all, if
what it brings in has them (`Command.Brings`).
-/

namespace SchemaDesk

/-! ## Names -/

/-- A name that can stand: a text that is not blank and has no blanks at its ends. -/
def Value.IsName (v : Value) : Prop :=
  ∃ s : Text, v = .str s ∧ s.trim = s ∧ s ≠ []

@[simp] theorem Value.isName_str {s : Text} : Value.IsName (.str s) ↔ s.trim = s ∧ s ≠ [] := by
  simp [IsName]

/-- What is left of a name that passed its check can stand. -/
theorem Edit.name_isName {v : Value} {place : Place} {clean : Text}
    (h : name v place = .ok clean) : Value.IsName (.str clean) := by
  cases v with
  | str s =>
      simp only [name] at h
      split at h
      · cases h
      · next hne =>
          cases h
          have htrimmed : s.trim ≠ [] := fun hnil => hne (List.isEmpty_iff.2 hnil)
          exact ⟨_, rfl, (Text.trimmed_trim htrimmed).trim, htrimmed⟩
  | _ => cases h

/-- Names that can stand are those that every check of a name leaves as they are. -/
theorem Value.isName_iff {v : Value} :
    v.IsName ↔ ∃ s : Text, v = .str s ∧ ∀ place, Edit.name v place = .ok s := by
  constructor
  · rintro ⟨s, rfl, htrim, hne⟩
    refine ⟨s, rfl, fun place => ?_⟩
    simp only [Edit.name, htrim, List.isEmpty_iff, if_neg hne]
  · rintro ⟨s, rfl, hname⟩
    exact Edit.name_isName (hname .addTableName)

/-- The name in a patch that was trimmed can stand. -/
theorem Edit.withName_isName {patch patch' : Patch} {place : Place}
    (h : withName patch place = .ok patch') :
    ∀ entry ∈ patch', entry.1 = "name" → entry.2.IsName := by
  intro entry hentry hkey
  obtain ⟨⟨key, v⟩, -, hentry⟩ := exists_of_mem_mapM h entry hentry
  simp only at hentry
  split at hentry
  · cases hname : name v place with
    | error e =>
        rw [hname] at hentry
        cases hentry
    | ok clean =>
        rw [hname] at hentry
        cases hentry
        exact name_isName hname
  · next hother =>
      cases hentry
      exact absurd hkey hother

/-! ## Schemas that are formed -/

/-- A table with a name that can stand and with at least one column, all of which are good. -/
structure Table.IsFormed (good : Column → Prop) (t : Table) : Prop where
  name : t.name.IsName
  nonempty : t.columns ≠ []
  columns : ∀ c ∈ t.columns, good c

/-- Tables that are formed, and proper relations. -/
structure Formed (good : Column → Prop) (proper : Relation → Prop) (tables : List Table)
    (relations : List Relation) : Prop where
  tables : ∀ t ∈ tables, t.IsFormed good
  relations : ∀ r ∈ relations, proper r

/-- Properties of columns and of relations that no edit spoils by itself: the first column of a
table has them, marks of foreign keys and the identifier of another such column make no difference,
and neither do the ends of a relation. -/
structure Edit.Lasting (good : Column → Prop) (proper : Relation → Prop) : Prop where
  seed : ∀ id, good (seedColumn id)
  unmarked : ∀ {c c'}, good c → Flags.cleared c' = Flags.cleared c → good c'
  taken : ∀ {c d}, good c → good d → good { c with id := d.id }
  related : ∀ ids ends options patch, RelationOptions.AreChosen options →
    (∀ entry ∈ patch, entry.1 ∈ relationPatchFields) → proper (newRelation ids ends options patch)
  moved : ∀ {r} tableIds columnIds, proper r → proper (Merge.renameEnds tableIds columnIds r)

/-- Whether all columns that a command brings in are good, and its relations proper. -/
def Command.Brings (good : Column → Prop) (proper : Relation → Prop) : Command → Prop
  | .addColumn _ v type patch => ∀ patch' id,
      (∀ entry ∈ patch, entry.1 ∉ ([("table_id" : Text), "name", "type"] : List Text)) →
      Edit.checkColumnPatch (("name", v) :: ("type", type) :: patch) .addColumn = .ok patch' →
      good (Field.patched Column.fields patch' { id := identifier id, name := .null })
  | .updateColumn _ _ patch => ∀ patch' c, Edit.checkColumnPatch patch .editColumn = .ok patch' →
      good c → good (Field.patched Column.fields patch' c)
  | .load project => Formed good proper project.tables project.relations
  | .append tables relations => Formed good proper tables relations
  | .merge tables relations => Formed good proper tables relations
  | _ => True

section Parts

variable {good : Column → Prop} {proper : Relation → Prop} {tables tables' : List Table}
  {relations relations' : List Relation}

theorem Formed.nil : Formed good proper [] [] :=
  ⟨List.forall_mem_nil _, List.forall_mem_nil _⟩

theorem Formed.append (h : Formed good proper tables relations)
    (h' : Formed good proper tables' relations') :
    Formed good proper (tables ++ tables') (relations ++ relations') :=
  ⟨List.forall_mem_append.2 ⟨h.tables, h'.tables⟩,
    List.forall_mem_append.2 ⟨h.relations, h'.relations⟩⟩

/-- Tables and relations may be taken away. -/
theorem Formed.mono (h : Formed good proper tables relations) (htables : tables' ⊆ tables)
    (hrelations : relations' ⊆ relations) : Formed good proper tables' relations' :=
  ⟨fun t ht => h.tables t (htables ht), fun r hr => h.relations r (hrelations hr)⟩

theorem Formed.replaceTable (h : Formed good proper tables relations) {t : Table}
    (ht : t.IsFormed good) : Formed good proper (replaceTable tables t) relations := by
  refine ⟨fun u hu => ?_, h.relations⟩
  rcases mem_replaceTable hu with rfl | hu
  · exact ht
  · exact h.tables u hu

/-- A table stays formed when only marks of its columns change. -/
theorem Table.IsFormed.decorate (hlasting : Edit.Lasting good proper)
    {change : Value → Column → Column}
    (hchange : ∀ t c, Flags.cleared (change t c) = Flags.cleared c) {t : Table}
    (ht : t.IsFormed good) : (decorate change t).IsFormed good := by
  refine ⟨ht.name, fun hnil => ht.nonempty (List.map_eq_nil_iff.1 hnil), fun c hc => ?_⟩
  obtain ⟨d, hd, rfl⟩ := List.mem_map.1 hc
  exact hlasting.unmarked (ht.columns d hd) (hchange _ d)

theorem Formed.mapColumns (hlasting : Edit.Lasting good proper)
    {change : Value → Column → Column}
    (hchange : ∀ t c, Flags.cleared (change t c) = Flags.cleared c)
    (h : Formed good proper tables relations) :
    Formed good proper (Flags.mapColumns change tables) relations := by
  refine ⟨fun t ht => ?_, h.relations⟩
  obtain ⟨u, hu, rfl⟩ := Flags.mem_mapColumns.1 ht
  exact (h.tables u hu).decorate hlasting hchange

theorem Formed.release (hlasting : Edit.Lasting good proper) {removed remaining : List Relation}
    (h : Formed good proper tables relations) :
    Formed good proper (Flags.release removed remaining tables) relations := by
  refine h.mapColumns hlasting fun t c => ?_
  split <;> rfl

end Parts

/-! ## Merges -/

namespace Edit.Merge

variable {good : Column → Prop} {proper : Relation → Prop}

/-- A table that takes over the columns of another one has as many of them, and takes nothing else
over. -/
theorem join_isFormed (hlasting : Lasting good proper) {existing declared : Table}
    (h : existing.IsFormed good) (h' : declared.IsFormed good) :
    (join existing declared).IsFormed good := by
  refine ⟨h.name, fun hnil => h'.nonempty ?_, fun c hc => ?_⟩
  · rwa [join_eq, takenColumns, List.mapIdx_eq_nil_iff] at hnil
  · obtain ⟨pair, hpair, rfl⟩ := List.mem_map.1 hc
    obtain ⟨hdeclared, hprior⟩ := mem_pairColumns hpair
    have hc := h'.columns _ hdeclared
    rw [joinedColumn]
    cases hcase : pair.2 with
    | none => exact hc
    | some prior => exact hlasting.taken hc (h.columns _ (hprior prior hcase))

theorem merged_formed (hlasting : Lasting good proper) {p : Project} {declared : List Table}
    {relations : List Relation} (hp : Formed good proper p.tables p.relations)
    (hdeclared : Formed good proper declared relations) :
    Formed good proper (merged p declared relations).tables
      (merged p declared relations).relations := by
  constructor
  · have hjoined : ∀ t ∈ joinedTables p declared, t.IsFormed good := by
      intro t ht
      rcases List.mem_append.1 ht with ht | ht
      · rcases mem_joinAll ht with ht | ⟨u, hu, d, hd, rfl⟩
        · exact hp.tables t ht
        · exact join_isFormed hlasting (hp.tables u hu)
            (hdeclared.tables d (mem_lastDeclarations hd))
      · exact hdeclared.tables t (mem_lastDeclarations (List.mem_filter.1 ht).1)
    rw [merged_tables, List.forall_mem_map]
    exact fun t ht => (hjoined t ht).decorate hlasting (cleared_finished p declared relations)
  · rw [merged_relations_eq]
    intro r hr
    rcases List.mem_append.1 hr with hr | hr
    · exact hp.relations r (List.mem_filter.1 hr).1
    · obtain ⟨s, hs, rfl⟩ := List.mem_map.1 (List.mem_filter.1 (mem_newEnds hr)).1
      exact hlasting.moved _ _ (hdeclared.relations s hs)

end Edit.Merge

/-! ## Every command -/

namespace Edit

open Minting

variable {good : Column → Prop} {proper : Relation → Prop} {p q : Project} {ids ids' : IdSupply}
  {patch : Patch}

theorem newTable_isFormed (hlasting : Lasting good proper) {v : Value} {clean : Text}
    (hclean : name v .addTableName = .ok clean)
    (hfields : ∀ entry ∈ patch, entry.1 ∈ fieldsWithout Table.fields ["id", "name"]) :
    (newTable ids clean patch).IsFormed good := by
  have hname := ne_of_mem_fieldsWithout (List.mem_cons_of_mem _ List.mem_cons_self) hfields
  refine ⟨?_, ?_, ?_⟩
  · exact Field.patched_view (P := Value.IsName) Table.name "name" (by simp [Table.fields])
      (fun entry he hkey => absurd hkey (hname entry he)) (name_isName hclean)
  · rw [newTable, Table.patched_columns]
    exact List.cons_ne_nil _ _
  · rw [newTable, Table.patched_columns, List.forall_mem_singleton]
    exact hlasting.seed _

theorem updateTable_formed {id : Value} {t : Table}
    (h : (updateTable id patch p).Gives ids (t, some q) ids')
    (hp : Formed good proper p.tables p.relations) :
    Formed good proper q.tables q.relations := by
  obtain ⟨u, patch', hu, -, hname, rfl, hnext, -⟩ := updateTable_gives h
  cases hnext
  have hu := hp.tables u (Project.table?_eq_some hu).1
  refine hp.replaceTable ⟨?_, ?_, ?_⟩
  · exact Field.patched_view (P := Value.IsName) Table.name "name" (by simp [Table.fields])
      (withName_isName hname) hu.name
  · rw [Table.patched_columns]
    exact hu.nonempty
  · rw [Table.patched_columns]
    exact hu.columns

theorem addColumn_formed {tableId v type : Value} {c : Column}
    (h : (addColumn tableId v type patch p).Gives ids (c, some q) ids')
    (hbrings : (Command.addColumn tableId v type patch).Brings good proper)
    (hp : Formed good proper p.tables p.relations) :
    Formed good proper q.tables q.relations := by
  obtain ⟨t, patch', ht, hcheck, rfl, hnext, -, hgiven⟩ := addColumn_gives h
  cases hnext
  have ht := hp.tables t (Project.table?_eq_some ht).1
  refine hp.replaceTable ⟨ht.name, ?_, fun c hc => ?_⟩
  · exact List.append_ne_nil_of_right_ne_nil _ (List.cons_ne_nil _ _)
  · rcases List.mem_append.1 hc with hc | hc
    · exact ht.columns c hc
    · rw [List.mem_singleton.1 hc]
      exact hbrings patch' _ hgiven hcheck

theorem updateColumn_formed {tableId columnId : Value} {c : Column}
    (h : (updateColumn tableId columnId patch p).Gives ids (c, some q) ids')
    (hbrings : (Command.updateColumn tableId columnId patch).Brings good proper)
    (hp : Formed good proper p.tables p.relations) :
    Formed good proper q.tables q.relations := by
  obtain ⟨t, d, patch', ht, hd, hcheck, rfl, hnext, -⟩ := updateColumn_gives h
  cases hnext
  have ht := hp.tables t (Project.table?_eq_some ht).1
  have hd := ht.columns d (Table.column?_eq_some hd).1
  refine hp.replaceTable ⟨ht.name, fun hnil => ht.nonempty (List.map_eq_nil_iff.1 hnil),
    fun c hc => ?_⟩
  obtain ⟨e, he, rfl⟩ := List.mem_map.1 hc
  split
  · exact hbrings patch' d hcheck hd
  · exact ht.columns e he

/-- Deleting a column leaves another one: its identifier is that of no other column of the table,
and it was not the only column. -/
theorem deleteColumn_formed (hlasting : Lasting good proper) {tableId columnId : Value} {a : Unit}
    (h : (deleteColumn tableId columnId p).Gives ids (a, some q) ids') (hsound : p.IsSound)
    (hp : Formed good proper p.tables p.relations) :
    Formed good proper q.tables q.relations := by
  obtain ⟨t, c, ht, -, hmore, hnext, -⟩ := deleteColumn_gives h
  cases hnext
  have hmem := (Project.table?_eq_some ht).1
  have hformed := hp.tables t hmem
  have hleft : t.columns.filter (!·.id.equals columnId) ≠ [] := by
    intro hnil
    have hall : ∀ i ∈ t.columns.map (·.id.canon), i = columnId.canon := by
      refine List.forall_mem_map.2 fun d hd => ?_
      have hequals := List.filter_eq_nil_iff.1 hnil d hd
      rw [Bool.not_eq_true, Bool.not_eq_false'] at hequals
      exact Value.canon_of_equals hequals
    have hnodup := hsound.columnIds_nodup hmem
    rw [List.eq_replicate_of_mem hall, List.nodup_replicate, List.length_map] at hnodup
    have hsome := List.length_pos_iff.2 hformed.nonempty
    omega
  have hchanged : Table.IsFormed good
      { t with columns := t.columns.filter (!·.id.equals columnId) } :=
    ⟨hformed.name, hleft, fun d hd => hformed.columns d (List.mem_filter.1 hd).1⟩
  exact ((hp.replaceTable hchanged).mono (List.Subset.refl _)
    List.filter_sublist.subset).release hlasting

theorem addRelation_formed (hlasting : Lasting good proper) {ends : Ends}
    {options : RelationOptions} {r : Relation}
    (h : (addRelation ends options patch p).Gives ids (r, some q) ids')
    (hp : Formed good proper p.tables p.relations) :
    Formed good proper q.tables q.relations := by
  obtain ⟨-, -, -, rfl, hnext, -, hchosen, hfields⟩ := addRelation_gives h
  cases hnext
  refine Formed.mapColumns hlasting (Flags.cleared_marked _) ⟨hp.tables, ?_⟩
  rw [List.forall_mem_append, List.forall_mem_singleton]
  exact ⟨hp.relations, hlasting.related _ _ _ _ hchosen hfields⟩

end Edit

open Edit in
/-- A command that brings in good columns and proper relations only keeps a sound schema formed. -/
theorem Command.keeps_formed {good : Column → Prop} {proper : Relation → Prop}
    (hlasting : Lasting good proper) {name database : Value} {command : Command} {p q : Project}
    {ids ids' : IdSupply} {reply : Reply}
    (h : (command.edit name database p).Gives ids (reply, some q) ids')
    (hbrings : command.Brings good proper) (hsound : p.IsSound)
    (hp : Formed good proper p.tables p.relations)
    (hrestored : ∀ s, command = .restore s → Formed good proper s.tables s.relations) :
    Formed good proper q.tables q.relations := by
  rcases Command.schema_cases h with ⟨htables, hrelations⟩ | hedits
  · rw [htables, hrelations]
    exact hp
  cases command <;> (rw [Command.edit, replying_gives] at h; obtain ⟨a, h, -⟩ := h) <;>
    try exact hedits.elim
  case reset =>
    obtain ⟨q', hnext, htables, hrelations⟩ := reset_gives h
    cases hnext
    rw [htables, hrelations]
    exact .nil
  case addTable =>
    obtain ⟨clean, hclean, hfields, rfl, hnext, -⟩ := addTable_gives h
    cases hnext
    refine ⟨?_, hp.relations⟩
    rw [List.forall_mem_append, List.forall_mem_singleton]
    exact ⟨hp.tables, newTable_isFormed hlasting hclean hfields⟩
  case updateTable => exact updateTable_formed h hp
  case moveTable => exact updateTable_formed h hp
  case deleteTable =>
    obtain ⟨t, -, hnext, -⟩ := deleteTable_gives h
    cases hnext
    exact (hp.mono List.filter_sublist.subset List.filter_sublist.subset).release hlasting
  case addColumn => exact addColumn_formed h hbrings hp
  case updateColumn => exact updateColumn_formed h hbrings hp
  case deleteColumn => exact deleteColumn_formed hlasting h hsound hp
  case addRelation => exact addRelation_formed hlasting h hp
  case deleteRelation =>
    obtain ⟨hnext | hnext, -⟩ := deleteRelation_gives h
    · cases hnext
    · cases hnext
      exact (hp.mono (List.Subset.refl _) List.filter_sublist.subset).release hlasting
  case restore =>
    obtain ⟨hnext, -⟩ := restore_gives h
    cases hnext
    exact hrestored _ rfl
  case load =>
    obtain ⟨hnext, -, -⟩ := load_gives h
    cases hnext
    exact hbrings
  case append =>
    obtain ⟨-, hnext, -⟩ := append_gives.1 h
    cases hnext
    exact hp.append hbrings
  case merge =>
    obtain ⟨-, -, hnext, -⟩ := merge_gives.1 h
    cases hnext
    exact Merge.merged_formed hlasting hp hbrings

end SchemaDesk
