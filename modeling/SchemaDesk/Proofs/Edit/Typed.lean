import SchemaDesk.Proofs.Edit.Marks
import SchemaDesk.Proofs.Edit.Sound

/-!
# Edits keep tables typed

Identifiers that are drawn are text, names are checked to be text, and the reference of a column is
nothing or the target of a relation.  So every edit that takes in typed tables only, and patches
references with text or nothing, keeps tables typed (`Command.keeps_typed`).

A merge needs typed tables to succeed, which is why sessions are told apart by this.
-/

namespace SchemaDesk

/-- The fields of a column that repeat the target of a relation. -/
def Column.referenceFields : List Text :=
  ["references_table_id", "references_column_id"]

/-- Whether a patch of a column gives references that are text or nothing. -/
def Patch.HasTextReferences (patch : Patch) : Prop :=
  ∀ entry ∈ patch, entry.1 ∈ Column.referenceFields → entry.2.IsOptionalText

/-- Whether a command takes in typed tables and references only. -/
def Command.TakesText : Command → Prop
  | .addColumn _ _ _ patch => Patch.HasTextReferences patch
  | .updateColumn _ _ patch => Patch.HasTextReferences patch
  | .load project => ∀ t ∈ project.tables, t.IsTyped
  | .append tables _ => ∀ t ∈ tables, t.IsTyped
  | .merge tables _ => ∀ t ∈ tables, t.IsTyped
  | _ => True

/-! ## Patches -/

/-- What a successful loop gives comes from its items. -/
theorem exists_of_mem_mapM {ε α β : Type} {f : α → Except ε β} {xs : List α} {ys : List β}
    (h : xs.mapM f = .ok ys) : ∀ y ∈ ys, ∃ x ∈ xs, f x = .ok y := by
  induction xs generalizing ys with
  | nil =>
      cases h
      exact fun y hy => absurd hy List.not_mem_nil
  | cons x xs ih =>
      rw [List.mapM_cons] at h
      obtain ⟨first, hfirst, h⟩ := Except.bind_eq_ok.1 h
      obtain ⟨rest, hrest, h⟩ := Except.bind_eq_ok.1 h
      cases h
      rw [List.forall_mem_cons]
      refine ⟨⟨x, List.mem_cons_self, hfirst⟩, fun y hy => ?_⟩
      obtain ⟨z, hz, hzy⟩ := ih hrest y hy
      exact ⟨z, List.mem_cons_of_mem _ hz, hzy⟩

/-- An entry of a patch whose name was trimmed is that name or was there before. -/
theorem Edit.withName_cases {patch patch' : Patch} {place : Place}
    (h : withName patch place = .ok patch') {entry : Text × Value} (hentry : entry ∈ patch') :
    (entry.1 = "name" ∧ ∃ s, entry.2 = .str s) ∨ (entry.1 ≠ "name" ∧ entry ∈ patch) := by
  obtain ⟨⟨key, v⟩, hmem, hentry⟩ := exists_of_mem_mapM h entry hentry
  simp only at hentry
  split at hentry
  · next hkey =>
      cases hname : name v place with
      | error e =>
          rw [hname] at hentry
          cases hentry
      | ok clean =>
          rw [hname] at hentry
          cases hentry
          exact .inl ⟨hkey, clean, rfl⟩
  · next hkey =>
      cases hentry
      exact .inr ⟨hkey, hmem⟩

/-- A patch that gives a name first gives it as a text. -/
theorem Edit.withName_cons_name {v : Value} {patch patch' : Patch} {place : Place}
    (h : withName (("name", v) :: patch) place = .ok patch') :
    ∃ (clean : Text) (rest : Patch), patch' = (Text.ofString "name", Value.str clean) :: rest := by
  rw [withName, List.mapM_cons] at h
  obtain ⟨first, hfirst, h⟩ := Except.bind_eq_ok.1 h
  obtain ⟨rest, hrest, h⟩ := Except.bind_eq_ok.1 h
  cases h
  cases hname : name v place with
  | error e => simp [hname, Except.map] at hfirst
  | ok clean =>
      simp only [hname, if_true, Except.map, Except.ok.injEq] at hfirst
      exact ⟨clean, rest, by rw [hfirst]⟩

/-- What a patched record has in a place that only one field reaches is what it had there, or what
the patch gives that field. -/
theorem Field.patched_view {ρ : Type} {fields : List (Field ρ)} (view : ρ → Value) (key : Text)
    (hview : ∀ f ∈ fields, (∀ v r, view (f.set v r) = view r) ∨
      (f.name = key ∧ ∀ v r, view (f.set v r) = v))
    {P : Value → Prop} {patch : Patch} (hpatch : ∀ entry ∈ patch, entry.1 = key → P entry.2)
    {r : ρ} (hr : P (view r)) : P (view (patched fields patch r)) := by
  induction patch generalizing r with
  | nil => exact hr
  | cons entry patch ih =>
      refine ih (fun e he => hpatch e (List.mem_cons_of_mem _ he)) ?_
      rw [put]
      cases hfind : fields.find? (·.name = entry.1) with
      | none => exact hr
      | some f =>
          have hname := List.find?_some hfind
          have hname := of_decide_eq_true hname
          rcases hview f (List.mem_of_find?_eq_some hfind) with hkeep | ⟨hkey, hset⟩
          · rw [hkeep]
            exact hr
          · rw [hset]
            exact hpatch entry List.mem_cons_self (hname.symm.trans hkey)

/-- Patching a column with typed values keeps it typed. -/
theorem Column.patched_isTyped {patch : Patch} (hid : ∀ entry ∈ patch, entry.1 ≠ "id")
    (hname : ∀ entry ∈ patch, entry.1 = "name" → ∃ s, entry.2 = .str s)
    (hreferences : Patch.HasTextReferences patch) {c : Column} (hc : c.IsTyped) :
    (Field.patched fields patch c).IsTyped := by
  refine ⟨?_, ?_, ?_, ?_⟩
  · rw [patched_id hid]
    exact hc.id
  · exact Field.patched_view (P := fun v => ∃ s, v = .str s) Column.name "name" (by simp [fields])
      hname hc.name
  · refine Field.patched_view referencesTableId "references_table_id" (by simp [fields])
      (fun entry he hkey => ?_) hc.referencesTableId
    exact hreferences entry he (hkey ▸ List.mem_cons_self)
  · refine Field.patched_view referencesColumnId "references_column_id" (by simp [fields])
      (fun entry he hkey => ?_) hc.referencesColumnId
    exact hreferences entry he (hkey ▸ List.mem_cons_of_mem _ List.mem_cons_self)

/-- Patching a table with a typed name keeps it typed. -/
theorem Table.patched_isTyped {patch : Patch} (hid : ∀ entry ∈ patch, entry.1 ≠ "id")
    (hname : ∀ entry ∈ patch, entry.1 = "name" → ∃ s, entry.2 = .str s) {t : Table}
    (ht : t.IsTyped) : (Field.patched fields patch t).IsTyped := by
  refine ⟨?_, ?_, ?_⟩
  · rw [patched_id hid]
    exact ht.id
  · exact Field.patched_view (P := fun v => ∃ s, v = .str s) Table.name "name" (by simp [fields])
      hname ht.name
  · rw [patched_columns]
    exact ht.columns

/-! ## Tables of typed columns -/

variable {tables : List Table}

/-- A change of columns that keeps them typed keeps tables typed. -/
theorem isTyped_mapColumns {change : Value → Column → Column} (h : ∀ t ∈ tables, t.IsTyped)
    (hchange : ∀ t c, c.IsTyped → (change t c).IsTyped) :
    ∀ t ∈ Flags.mapColumns change tables, t.IsTyped := by
  intro t ht
  obtain ⟨u, hu, rfl⟩ := Flags.mem_mapColumns.1 ht
  refine ⟨(h u hu).id, (h u hu).name, fun c hc => ?_⟩
  obtain ⟨d, hd, rfl⟩ := List.mem_map.1 hc
  exact hchange _ d ((h u hu).columns d hd)

theorem isTyped_replaceTable {t' : Table} (h : ∀ t ∈ tables, t.IsTyped) (ht' : t'.IsTyped) :
    ∀ t ∈ replaceTable tables t', t.IsTyped := by
  intro t ht
  rcases mem_replaceTable ht with rfl | ht
  · exact ht'
  · exact h t ht

theorem Column.IsTyped.cleared {c : Column} (h : c.IsTyped) : (Flags.cleared c).IsTyped :=
  ⟨h.id, h.name, .inl rfl, .inl rfl⟩

theorem isTyped_release {removed remaining : List Relation} (h : ∀ t ∈ tables, t.IsTyped) :
    ∀ t ∈ Flags.release removed remaining tables, t.IsTyped := by
  refine isTyped_mapColumns h fun t c hc => ?_
  split
  · exact hc.cleared
  · exact hc

/-- Marking the start of a relation whose target is text keeps tables typed. -/
theorem isTyped_mark {relations : List Relation} (h : ∀ t ∈ tables, t.IsTyped)
    (htargets : Flags.HasTextTargets relations) :
    ∀ t ∈ Flags.mark relations tables, t.IsTyped := by
  refine isTyped_mapColumns h fun t c hc => ?_
  cases hlast : Flags.lastFrom? relations t c.id with
  | none => exact hc
  | some r =>
      obtain ⟨htable, hcolumn⟩ := htargets r (Flags.lastFrom?_eq_some hlast).1
      simp only [Flags.flagged]
      split
      · exact hc
      · exact ⟨hc.id, hc.name, .inr htable, .inr hcolumn⟩

/-! ## Every command -/

namespace Edit

open Minting

variable {p q : Project} {ids ids' : IdSupply} {patch : Patch}

theorem newTable_isTyped {clean : Text}
    (h : ∀ entry ∈ patch, entry.1 ∈ fieldsWithout Table.fields ["id", "name"]) :
    (newTable ids clean patch).IsTyped := by
  have hname := ne_of_mem_fieldsWithout (List.mem_cons_of_mem _ List.mem_cons_self) h
  refine Table.patched_isTyped (ne_of_mem_fieldsWithout List.mem_cons_self h)
    (fun entry he hkey => absurd hkey (hname entry he)) ⟨⟨_, rfl⟩, ⟨_, rfl⟩, ?_⟩
  intro c hc
  rw [List.mem_singleton.1 hc]
  exact ⟨⟨_, rfl⟩, ⟨_, rfl⟩, .inl rfl, .inl rfl⟩

theorem updateTable_isTyped {id : Value} {t : Table}
    (h : (updateTable id patch p).Gives ids (t, some q) ids') (hp : ∀ t ∈ p.tables, t.IsTyped) :
    ∀ t ∈ q.tables, t.IsTyped := by
  obtain ⟨u, patch', hu, hfields, hname, rfl, hnext, -⟩ := updateTable_gives h
  cases hnext
  have hid := withName_spares (· = "id") hname (ne_of_mem_fieldsWithout List.mem_cons_self hfields)
  refine isTyped_replaceTable hp (Table.patched_isTyped hid (fun entry he hkey => ?_)
    (hp u (Project.table?_eq_some hu).1))
  exact (withName_cases hname he).elim And.right fun hother => absurd hkey hother.1

/-- The patch of a column that passed its check has typed entries. -/
theorem checkColumnPatch_isTyped {patch' : Patch} {place : Place}
    (h : checkColumnPatch patch place = .ok patch') (hpatch : Patch.HasTextReferences patch) :
    (∀ entry ∈ patch', entry.1 = "name" → ∃ s, entry.2 = .str s) ∧
      Patch.HasTextReferences patch' := by
  have hname := (checkColumnPatch_eq_ok h).2
  refine ⟨fun entry he hkey => ?_, fun entry he hkey => ?_⟩
  · exact (withName_cases hname he).elim And.right fun hother => absurd hkey hother.1
  · rcases withName_cases hname he with ⟨hentry, -⟩ | ⟨-, hmem⟩
    · rw [hentry] at hkey
      exact absurd hkey (by decide)
    · exact hpatch entry hmem hkey

theorem addColumn_isTyped {tableId v type : Value} {c : Column}
    (h : (addColumn tableId v type patch p).Gives ids (c, some q) ids')
    (hp : ∀ t ∈ p.tables, t.IsTyped) (hpatch : Patch.HasTextReferences patch) :
    ∀ t ∈ q.tables, t.IsTyped := by
  obtain ⟨t, patch', ht, hcheck, rfl, hnext, -⟩ := addColumn_gives h
  cases hnext
  have hgiven : Patch.HasTextReferences (("name", v) :: ("type", type) :: patch) := by
    have hname : Text.ofString "name" ∉ Column.referenceFields := by decide
    have htype : Text.ofString "type" ∉ Column.referenceFields := by decide
    intro entry he hkey
    rcases List.mem_cons.1 he with rfl | he
    · exact absurd hkey hname
    · rcases List.mem_cons.1 he with rfl | he
      · exact absurd hkey htype
      · exact hpatch entry he hkey
  have hid := checkColumnPatch_id hcheck
  obtain ⟨hname, hreferences⟩ := checkColumnPatch_isTyped hcheck hgiven
  obtain ⟨clean, rest, rfl⟩ := withName_cons_name (checkColumnPatch_eq_ok hcheck).2
  rw [List.forall_mem_cons] at hid hname
  -- the column is typed once the first entry of the patch has given it its name
  have hnew : (Field.patched Column.fields ((Text.ofString "name", Value.str clean) :: rest)
      { id := identifier (ids.drawn + 1), name := .null }).IsTyped := by
    show (Field.patched Column.fields rest
      { id := identifier (ids.drawn + 1), name := clean }).IsTyped
    exact Column.patched_isTyped hid.2 hname.2
      (fun entry he => hreferences entry (List.mem_cons_of_mem _ he))
      ⟨⟨_, rfl⟩, ⟨_, rfl⟩, .inl rfl, .inl rfl⟩
  have ht := hp t (Project.table?_eq_some ht).1
  refine isTyped_replaceTable hp ⟨ht.id, ht.name, fun c hc => ?_⟩
  rcases List.mem_append.1 hc with hc | hc
  · exact ht.columns c hc
  · rw [List.mem_singleton.1 hc]
    exact hnew

theorem updateColumn_isTyped {tableId columnId : Value} {c : Column}
    (h : (updateColumn tableId columnId patch p).Gives ids (c, some q) ids')
    (hp : ∀ t ∈ p.tables, t.IsTyped) (hpatch : Patch.HasTextReferences patch) :
    ∀ t ∈ q.tables, t.IsTyped := by
  obtain ⟨t, d, patch', ht, hd, hcheck, rfl, hnext, -⟩ := updateColumn_gives h
  cases hnext
  obtain ⟨hname, hreferences⟩ := checkColumnPatch_isTyped hcheck hpatch
  have ht := hp t (Project.table?_eq_some ht).1
  have hd := ht.columns d (Table.column?_eq_some hd).1
  refine isTyped_replaceTable hp ⟨ht.id, ht.name, fun c hc => ?_⟩
  obtain ⟨e, he, rfl⟩ := List.mem_map.1 hc
  split
  · exact Column.patched_isTyped (checkColumnPatch_id hcheck) hname hreferences hd
  · exact ht.columns e he

theorem deleteColumn_isTyped {tableId columnId : Value} {a : Unit}
    (h : (deleteColumn tableId columnId p).Gives ids (a, some q) ids')
    (hp : ∀ t ∈ p.tables, t.IsTyped) : ∀ t ∈ q.tables, t.IsTyped := by
  obtain ⟨t, c, ht, -, -, hnext, -⟩ := deleteColumn_gives h
  cases hnext
  have ht := hp t (Project.table?_eq_some ht).1
  exact isTyped_release (isTyped_replaceTable hp
    ⟨ht.id, ht.name, fun c hc => ht.columns c (List.mem_filter.1 hc).1⟩)

/-- The target of a relation that is added is text. -/
theorem addRelation_textTargets {ends : Ends} {options : RelationOptions} {r : Relation}
    (h : (addRelation ends options patch p).Gives ids (r, some q) ids')
    (hp : ∀ t ∈ p.tables, t.IsTyped) : Flags.HasTextTargets [r] := by
  obtain ⟨-, htarget, hkeys, rfl, -, -⟩ := addRelation_gives h
  intro r hr
  have hends : r.endIds = [ends.sourceTableId, ends.sourceColumnId, ends.targetTableId,
      ends.targetColumnId] := by
    rw [List.mem_singleton.1 hr]
    exact Relation.patched_endIds (fun entry he => (hkeys entry he).2) _
  simp only [Relation.endIds, List.cons.injEq] at hends
  rw [hends.2.2.1, hends.2.2.2.1]
  exact htarget.isText hp

theorem addRelation_isTyped {ends : Ends} {options : RelationOptions} {r : Relation}
    (h : (addRelation ends options patch p).Gives ids (r, some q) ids')
    (hp : ∀ t ∈ p.tables, t.IsTyped) : ∀ t ∈ q.tables, t.IsTyped := by
  have htext := addRelation_textTargets h hp
  obtain ⟨-, -, -, rfl, hnext, -⟩ := addRelation_gives h
  cases hnext
  exact isTyped_mark hp htext

end Edit

open Edit in
/-- A command that takes in typed tables and references only keeps all tables typed. -/
theorem Command.keeps_typed {name database : Value} {command : Command} {p q : Project}
    {ids ids' : IdSupply} {reply : Reply}
    (h : (command.edit name database p).Gives ids (reply, some q) ids')
    (htakes : command.TakesText) (hp : ∀ t ∈ p.tables, t.IsTyped)
    (hrestored : ∀ s, command = .restore s → ∀ t ∈ s.tables, t.IsTyped) :
    ∀ t ∈ q.tables, t.IsTyped := by
  rcases Command.schema_cases h with ⟨htables, -⟩ | hedits
  · rw [htables]
    exact hp
  cases command <;> (rw [Command.edit, replying_gives] at h; obtain ⟨a, h, -⟩ := h) <;>
    try exact hedits.elim
  case reset =>
    obtain ⟨q', hnext, htables, -⟩ := reset_gives h
    cases hnext
    rw [htables]
    exact fun t ht => absurd ht List.not_mem_nil
  case addTable =>
    obtain ⟨clean, -, hfields, rfl, hnext, -⟩ := addTable_gives h
    cases hnext
    intro t ht
    rcases List.mem_append.1 ht with ht | ht
    · exact hp t ht
    · rw [List.mem_singleton.1 ht]
      exact newTable_isTyped hfields
  case updateTable => exact updateTable_isTyped h hp
  case moveTable => exact updateTable_isTyped h hp
  case deleteTable =>
    obtain ⟨t, -, hnext, -⟩ := deleteTable_gives h
    cases hnext
    exact isTyped_release fun t ht => hp t (List.mem_filter.1 ht).1
  case addColumn => exact addColumn_isTyped h hp htakes
  case updateColumn => exact updateColumn_isTyped h hp htakes
  case deleteColumn => exact deleteColumn_isTyped h hp
  case addRelation => exact addRelation_isTyped h hp
  case deleteRelation =>
    obtain ⟨hnext | hnext, -⟩ := deleteRelation_gives h
    · cases hnext
    · cases hnext
      exact isTyped_release hp
  case restore =>
    obtain ⟨hnext, -⟩ := restore_gives h
    cases hnext
    exact hrestored _ rfl
  case load =>
    obtain ⟨hnext, -, -⟩ := load_gives h
    cases hnext
    exact htakes
  case append =>
    obtain ⟨-, hnext, -⟩ := append_gives.1 h
    cases hnext
    intro t ht
    rcases List.mem_append.1 ht with ht | ht
    · exact hp t ht
    · exact htakes t ht
  case merge =>
    obtain ⟨-, hsound, hnext, -⟩ := merge_gives.1 h
    cases hnext
    exact Merge.merged_isTyped hp htakes

end SchemaDesk
