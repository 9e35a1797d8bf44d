import SchemaDesk.Proofs.Edit.Merged
import SchemaDesk.Proofs.Number.Digits
import SchemaDesk.Proofs.Sql.Built
import SchemaDesk.Proofs.Storage.RoundTrip

/-!
# What is loaded can be read again

A document is checked while it is read: types, kinds and actions have to be admissible, tables need
names, relations need ends, and the whole has to be sound.  What passes is a project that
`Project.IsLoadable` describes (`ofDocument_isLoadable`), so its own document, if it has one, is
read as the same project, and nothing is coerced a second time.

Whether it has one depends on what is not checked: the names of columns and the identifiers of
relations (`loaded_document`).  A document may hold anything there, and a project with a column name
that is no text has neither a document nor a SQL text.
-/

namespace SchemaDesk

open Minting

namespace Document

/-! ## The entries of a stored record -/

section Known

variable {ρ : Type} {fields : List (Field ρ)} {more : List Text} {place : Place} {v : Value}
  {ids ids' : IdSupply} {patch : Patch}

/-- The known entries of a record are those of its object, under different keys; an identifier that
the object lacks is drawn. -/
theorem knownFields_gives (h : (knownFields fields more place v).Gives ids patch ids')
    (hkeys : v.hasDistinctKeys = true) (hid : (.ofString "id") ∈ Field.names fields) :
    ∃ entries, v = .object entries ∧ (patch.map Prod.fst).Nodup ∧
      (∀ key ∈ Field.names fields ++ more, key ≠ "id" →
        Value.get? key patch = Value.get? key entries) ∧
      ∃ drawn : Text, Value.get? "id" patch =
        some ((Value.get? "id" entries).getD (.str drawn)) := by
  cases v with
  | object entries =>
      obtain ⟨drawn, mid, -, h⟩ := gives_bind.1 h
      obtain ⟨rfl, -⟩ := gives_pure.1 h
      have hfilter : ∀ key ∈ Field.names fields ++ more, Value.get? key
          (entries.filter fun e => (Field.names fields ++ more).contains e.1) =
            Value.get? key entries := fun key hkey =>
        Value.get?_filter (List.contains_iff_mem.2 hkey) entries
      have hnodup := (Value.hasDistinctKeys_object.1 hkeys).1.sublist
        ((List.filter_sublist (p := fun e => (Field.names fields ++ more).contains e.1)).map _)
      refine ⟨entries, rfl, ?_⟩
      rw [hfilter _ (List.mem_append_left _ hid)]
      -- an identifier that was drawn stands at the end, under a key that was not there
      cases hstored : Value.get? "id" entries with
      | some id =>
          simp only [Option.isSome_some, if_true]
          refine ⟨hnodup, fun key hkey _ => hfilter key hkey, drawn, ?_⟩
          rw [hfilter _ (List.mem_append_left _ hid), hstored, Option.getD_some]
      | none =>
          have hnone := (hfilter _ (List.mem_append_left _ hid)).trans hstored
          simp only [Option.isSome_none, Bool.false_eq_true, if_false, Value.get?_concat]
          refine ⟨?_, fun key hkey hne => ?_, drawn, ?_⟩
          · rw [List.map_concat, List.nodup_concat]
            exact ⟨Value.get?_eq_none_iff.1 hnone, hnodup⟩
          · rw [hfilter key hkey, if_neg hne, Option.or_none]
          · simp only [hnone, if_true, Option.none_or, Option.getD_none]
  | _ => exact absurd h gives_report

end Known

/-! ## Records that are read -/

variable {v : Value} {ids ids' : IdSupply}

theorem memberTexts_isMembers {members : Value} (h : memberTexts v = .ok members) :
    members.IsMembers := by
  unfold memberTexts at h
  split at h
  · cases h
    exact .inl rfl
  · split at h
    · next parts _ =>
        cases h
        exact .inr ⟨parts.map Value.text, by rw [List.map_map]; rfl⟩
    · cases h

/-- The fields of a column that was made from entries of different keys. -/
theorem get_columnOfPatch {patch : Patch} (h : (patch.map Prod.fst).Nodup) :
    (Column.ofPatch patch).id = entry "id" patch ∧
      (Column.ofPatch patch).type = fieldOr "type" DataType.varchar.name patch ∧
      (Column.ofPatch patch).enumValues = entry "enum_values" patch := by
  have hfield := fun n (hn : n < Column.fields.length) =>
    Column.fields_lawful.get_patched (List.getElem_mem hn) h { id := .null, name := .null }
  exact ⟨hfield 0 (by decide), hfield 2 (by decide), hfield 14 (by decide)⟩

/-- A column that is read has one of the known types and members that are texts. -/
theorem column_gives {c : Column} (h : (column v).Gives ids c ids')
    (hkeys : v.hasDistinctKeys = true) :
    c.IsLoadable ∧ ∃ entries drawn, v = .object entries ∧
      c.id = (Value.get? "id" entries).getD (.str drawn) ∧
      memberTexts (entry "enum_values" entries) = .ok c.enumValues := by
  obtain ⟨patch, _, hpatch, h⟩ := gives_bind.1 h
  obtain ⟨⟨⟩, _, -, h⟩ := gives_bind.1 h
  obtain ⟨⟨⟩, _, htype, h⟩ := gives_bind.1 h
  obtain ⟨members, _, hmembers, h⟩ := gives_bind.1 h
  obtain ⟨rfl, -⟩ := gives_pure.1 h
  obtain ⟨entries, hv, hnodup, hsame, drawn, hid⟩ := knownFields_gives hpatch hkeys (by decide)
  -- putting the members that were read in place touches neither the identifier nor the type
  obtain ⟨hcolumnId, hcolumnType, hcolumnMembers⟩ := get_columnOfPatch hnodup
  have hmembers := (gives_ofExcept.1 hmembers).1
  refine ⟨⟨?_, memberTexts_isMembers hmembers⟩, entries, drawn, hv, ?_, ?_⟩
  · show ∃ type : DataType, (Column.ofPatch patch).type = .str type.name
    rw [hcolumnType]
    exact Choice.admits_columnType_iff.1 (checkChoice_eq_ok.1 (gives_ofExcept.1 htype).1)
  · show (Column.ofPatch patch).id = _
    rw [hcolumnId, entry, hid, Option.getD_some]
  · rw [← hmembers, hcolumnMembers, entry, entry, hsame _ (by decide) (by decide)]

/-- The parts of a stored list have no more repeated keys than the list. -/
theorem hasDistinctKeys_itemsOf {items : List Value} (h : itemsOf v = .ok items)
    (hkeys : v.hasDistinctKeys = true) : ∀ item ∈ items, item.hasDistinctKeys = true := by
  rw [itemsOf] at h
  split at h
  · split at h
    · next hparts =>
        cases h
        exact Value.hasDistinctKeys_elements hkeys hparts
    · cases h
  · cases h
    exact fun item hitem => absurd hitem List.not_mem_nil

theorem hasDistinctKeys_entry {entries : Patch} (h : (Value.object entries).hasDistinctKeys = true)
    (key : Text) : (entry key entries).hasDistinctKeys = true := by
  rw [entry]
  cases hfind : Value.get? key entries with
  | none => exact Value.hasDistinctKeys_null
  | some v => exact (Value.hasDistinctKeys_object.1 h).2 _ (Value.mem_of_get? hfind)

/-- A table that is read has a name that is not blank, and its columns are read from its items. -/
theorem table_gives {t : Table} (h : (table v).Gives ids t ids')
    (hkeys : v.hasDistinctKeys = true) :
    t.IsLoadable ∧ ∃ entries drawn items, v = .object entries ∧
      t.id = (Value.get? "id" entries).getD (.str drawn) ∧
      itemsOf (entry "columns" entries) = .ok items ∧
      (∀ item ∈ items, item.hasDistinctKeys = true) ∧
      List.Forall₂ (fun item c => ∃ before after, (column item).Gives before c after) items
        t.columns := by
  obtain ⟨patch, _, hpatch, h⟩ := gives_bind.1 h
  obtain ⟨⟨⟩, _, hname, h⟩ := gives_bind.1 h
  obtain ⟨items, _, hitems, h⟩ := gives_bind.1 h
  obtain ⟨columns, _, hcolumns, h⟩ := gives_bind.1 h
  obtain ⟨rfl, -⟩ := gives_pure.1 h
  obtain ⟨entries, rfl, hnodup, hsame, drawn, hid⟩ := knownFields_gives hpatch hkeys (by decide)
  have hfield := fun n (hn : n < Table.fields.length) =>
    Table.fields_lawful.get_patched (List.getElem_mem hn) hnodup
      { id := .null, name := .null, columns }
  have htableName : (Table.ofPatch columns patch).name = entry "name" patch := hfield 1 (by decide)
  have htableId : (Table.ofPatch columns patch).id = (Value.get? "id" patch).getD .null :=
    hfield 0 (by decide)
  have htableColumns : (Table.ofPatch columns patch).columns = columns := Table.patched_columns _
  have hname := require_eq_ok.1 (gives_ofExcept.1 hname).1
  have hitems := (gives_ofExcept.1 hitems).1
  rw [entry, hsame _ (by decide) (by decide)] at hitems
  have hitemKeys := hasDistinctKeys_itemsOf hitems (hasDistinctKeys_entry hkeys "columns")
  have hread := forall₂_of_mapM hcolumns
  refine ⟨⟨?_, fun c hc => ?_⟩, entries, drawn, items, rfl, ?_, hitems, hitemKeys, ?_⟩
  · rw [htableName]
    unfold isNameText at hname
    split at hname
    · next s hs =>
        rw [Bool.not_eq_true', List.isEmpty_eq_false_iff] at hname
        exact ⟨s, hs, hname⟩
    · cases hname
  · rw [htableColumns] at hc
    obtain ⟨item, hitem, before, after, hgives⟩ := Sql.forall₂_mem_right hread hc
    exact (column_gives hgives (hitemKeys item hitem)).1
  · rw [htableId, hid, Option.getD_some]
  · rw [htableColumns]
    exact hread

/-- A relation that is read has four ends, and an admissible kind and actions. -/
theorem relation_gives {r : Relation} (h : (relation v).Gives ids r ids')
    (hkeys : v.hasDistinctKeys = true) :
    r.IsLoadable ∧ ∃ entries drawn, v = .object entries ∧
      r.id = (Value.get? "id" entries).getD (.str drawn) ∧
      r.endIds = Relation.endFields.map (entry · entries) := by
  obtain ⟨patch, _, hpatch, h⟩ := gives_bind.1 h
  obtain ⟨⟨⟩, _, hmissing, h⟩ := gives_bind.1 h
  obtain ⟨⟨⟩, _, hkind, h⟩ := gives_bind.1 h
  obtain ⟨⟨⟩, _, hdelete, h⟩ := gives_bind.1 h
  obtain ⟨⟨⟩, _, hupdate, h⟩ := gives_bind.1 h
  obtain ⟨rfl, -⟩ := gives_pure.1 h
  obtain ⟨entries, rfl, hnodup, hsame, drawn, hid⟩ := knownFields_gives hpatch hkeys (by decide)
  -- Each field of the relation is read off the entry of its own name.
  have hfield := fun n (hn : n < Relation.fields.length) =>
    Relation.fields_lawful.get_patched (List.getElem_mem hn) hnodup
      { id := .null, sourceTableId := .null, sourceColumnId := .null, targetTableId := .null,
        targetColumnId := .null }
  have hrelationId : (Relation.ofPatch patch).id = (Value.get? "id" patch).getD .null :=
    hfield 0 (by decide)
  have hends : (Relation.ofPatch patch).endIds = Relation.endFields.map (entry · patch) := by
    simp only [Relation.endIds, Relation.endFields, List.map_cons, List.map_nil, List.cons.injEq,
      and_true]
    exact ⟨hfield 1 (by decide), hfield 2 (by decide), hfield 3 (by decide), hfield 4 (by decide)⟩
  refine ⟨⟨?_, ?_, ?_, ?_⟩, entries, drawn, rfl, ?_, ?_⟩
  · rw [hends]
    intro id hid
    obtain ⟨key, hkey, rfl⟩ := List.mem_map.1 hid
    have hmissing := List.isEmpty_iff.1 (require_eq_ok.1 (gives_ofExcept.1 hmissing).1)
    simpa using List.filter_eq_nil_iff.1 hmissing key hkey
  · rw [show (Relation.ofPatch patch).type = _ from hfield 5 (by decide)]
    exact checkChoice_eq_ok.1 (gives_ofExcept.1 hkind).1
  · rw [show (Relation.ofPatch patch).onDelete = _ from hfield 6 (by decide),
      ← (admits_storedAction _).1]
    exact checkChoice_eq_ok.1 (gives_ofExcept.1 hdelete).1
  · rw [show (Relation.ofPatch patch).onUpdate = _ from hfield 7 (by decide),
      ← (admits_storedAction _).2]
    exact checkChoice_eq_ok.1 (gives_ofExcept.1 hupdate).1
  · rw [hrelationId, hid, Option.getD_some]
  · rw [hends]
    refine List.map_congr_left fun key hkey => ?_
    have hknown : ∀ key ∈ Relation.endFields,
        key ∈ Field.names Relation.fields ++ [] ∧ key ≠ "id" := by decide
    rw [entry, entry, hsame key (hknown key hkey).1 (hknown key hkey).2]

/-! ## Lists and numbers that are read -/

/-- The records of a list are read from its items, in order. -/
theorem records_gives {α : Type} {read : Value → Minting α} {xs : List α}
    (h : (records read v).Gives ids xs ids') (hkeys : v.hasDistinctKeys = true) :
    ∃ items, itemsOf v = .ok items ∧ (∀ item ∈ items, item.hasDistinctKeys = true) ∧
      List.Forall₂ (fun item x => ∃ before after, (read item).Gives before x after) items xs := by
  obtain ⟨items, _, hread, h⟩ := gives_bind.1 h
  have hitems := (gives_ofExcept.1 hread).1
  exact ⟨items, hitems, hasDistinctKeys_itemsOf hitems hkeys, forall₂_of_mapM h⟩

theorem number_eq_ok {w : Value} (h : number v = .ok w) : ∃ x, w = .float x := by
  rw [number] at h
  cases hx : v.toBinary64 with
  | error failure =>
      rw [hx] at h
      cases h
  | ok x =>
      rw [hx] at h
      cases h
      exact ⟨x, rfl⟩

theorem numberAt_eq_ok {position : Nat} {w : Value} (h : Edit.numberAt v position = .ok w) :
    ∃ x, w = .float x := by
  obtain ⟨part, -, h⟩ := Except.bind_eq_ok.1 h
  obtain ⟨x, -, h⟩ := Except.bind_eq_ok.1 h
  cases h
  exact ⟨x, rfl⟩

/-- A pan is read as two floating-point numbers, in whichever form it is stored. -/
theorem pan_eq_ok {coordinates : List Value} (h : pan v = .ok coordinates) :
    ∃ x y, coordinates = [.float x, .float y] := by
  unfold pan at h
  simp only at h
  split at h
  · obtain ⟨x, hx, h⟩ := Except.bind_eq_ok.1 h
    obtain ⟨y, hy, h⟩ := Except.bind_eq_ok.1 h
    obtain ⟨x, rfl⟩ := number_eq_ok hx
    obtain ⟨y, rfl⟩ := number_eq_ok hy
    cases h
    exact ⟨x, y, rfl⟩
  · obtain ⟨x, hx, h⟩ := Except.bind_eq_ok.1 h
    obtain ⟨y, hy, h⟩ := Except.bind_eq_ok.1 h
    obtain ⟨x, rfl⟩ := numberAt_eq_ok hx
    obtain ⟨y, rfl⟩ := numberAt_eq_ok hy
    cases h
    exact ⟨x, y, rfl⟩

theorem projectId_gives {id : Text} (h : (projectId v).Gives ids id ids') : id ≠ [] := by
  rw [projectId] at h
  split at h
  · next htruthy =>
      obtain ⟨rfl, -⟩ := gives_pure.1 h
      refine Value.text_ne_nil fun hempty => ?_
      rw [hempty] at htruthy
      cases htruthy
  · obtain ⟨rfl, -⟩ := gives_mint.1 h
    exact List.append_ne_nil_of_right_ne_nil _ (by decide)

theorem orElse_text_ne_nil {s : Text} (h : s ≠ []) : (orElse v (.str s)).text ≠ [] := by
  rw [orElse]
  split
  · next htruthy =>
      refine Value.text_ne_nil fun hempty => ?_
      rw [hempty] at htruthy
      cases htruthy
  · exact h

/-- The state inside a document has no repeated keys if the document has none. -/
theorem hasDistinctKeys_state {entries : Patch} (h : state v = .ok entries)
    (hkeys : v.hasDistinctKeys = true) : (Value.object entries).hasDistinctKeys = true := by
  unfold state at h
  split at h
  · next document =>
      split at h
      · next stored hstored =>
          have hstoredKeys := hasDistinctKeys_entry hkeys Problem.storageKey
          rw [hstored] at hstoredKeys
          have hstateKeys := hasDistinctKeys_entry hstoredKeys "state"
          split at h
          · split at h
            · next found hfound =>
                cases h
                rwa [hfound] at hstateKeys
            · cases h
          · split at h
            · next found hfound =>
                cases h
                rwa [hfound] at hstateKeys
            · cases h
          · cases h
      · cases h
  · cases h

end Document

/-! ## Projects that are read -/

open Document in
/-- What a project that is read from the entries of a state has of each of them. -/
structure Project.IsReadFrom (p : Project) (entries : Patch) : Prop where
  id : ∃ before id after, (projectId (entry "id" entries)).Gives before id after ∧ p.id = .str id
  name : p.name = .str (orElse (entry "name" entries) "New Database").text
  database : p.database = .str (orElse (entry "database" entries) Engine.mysql.name).text
  admits : Choice.engine.admits p.database = true
  pan : Document.pan (entry "pan" entries) = .ok p.pan
  tables : ∃ before after, (records table (entry "tables" entries)).Gives before p.tables after
  relations : ∃ before after,
    (records relation (entry "relations" entries)).Gives before p.relations after
  notes : ∃ before after, (records note (entry "notes" entries)).Gives before p.notes after
  labels : ∃ before after, (records label (entry "texts" entries)).Gives before p.labels after
  zoom : number (fieldOr "zoom" (.float .one) entries) = .ok p.zoom

namespace Project

variable {v : Value} {ids ids' : IdSupply} {p : Project}

theorem ofDocument_gives (h : (ofDocument v).Gives ids p ids') :
    ∃ entries, Document.state v = .ok entries ∧ p.IsReadFrom entries ∧
      p.checkIntegrity = .ok () := by
  obtain ⟨entries, _, hstate, h⟩ := gives_bind.1 h
  obtain ⟨⟨⟩, _, hengine, h⟩ := gives_bind.1 h
  obtain ⟨pan, _, hpan, h⟩ := gives_bind.1 h
  obtain ⟨id, _, hid, h⟩ := gives_bind.1 h
  obtain ⟨tables, _, htables, h⟩ := gives_bind.1 h
  obtain ⟨relations, _, hrelations, h⟩ := gives_bind.1 h
  obtain ⟨notes, _, hnotes, h⟩ := gives_bind.1 h
  obtain ⟨labels, _, hlabels, h⟩ := gives_bind.1 h
  obtain ⟨zoom, _, hzoom, h⟩ := gives_bind.1 h
  obtain ⟨⟨⟩, _, hsound, h⟩ := gives_bind.1 h
  obtain ⟨rfl, -⟩ := gives_pure.1 h
  exact ⟨entries, (gives_ofExcept.1 hstate).1,
    { id := ⟨_, id, _, hid, rfl⟩
      name := rfl
      database := rfl
      admits := Document.checkChoice_eq_ok.1 (gives_ofExcept.1 hengine).1
      pan := (gives_ofExcept.1 hpan).1
      tables := ⟨_, _, htables⟩
      relations := ⟨_, _, hrelations⟩
      notes := ⟨_, _, hnotes⟩
      labels := ⟨_, _, hlabels⟩
      zoom := (gives_ofExcept.1 hzoom).1 }, (gives_ofExcept.1 hsound).1⟩

/-- A project that is read from a document can be read from its own. -/
theorem ofDocument_isLoadable (hkeys : v.hasDistinctKeys = true)
    (h : (ofDocument v).Gives ids p ids') : p.IsLoadable := by
  obtain ⟨entries, hstate, hread, hsound⟩ := ofDocument_gives h
  have hstateKeys := Document.hasDistinctKeys_state hstate hkeys
  obtain ⟨_, id, _, hid, hidEq⟩ := hread.id
  refine ⟨hsound, ⟨id, hidEq, Document.projectId_gives hid⟩,
    ⟨_, hread.name, Document.orElse_text_ne_nil (by decide)⟩, hread.admits, fun t ht => ?_,
    fun r hr => ?_, Document.number_eq_ok hread.zoom, Document.pan_eq_ok hread.pan⟩
  · obtain ⟨_, _, htables⟩ := hread.tables
    obtain ⟨items, -, hitemKeys, hitems⟩ :=
      Document.records_gives htables (Document.hasDistinctKeys_entry hstateKeys "tables")
    obtain ⟨item, hitem, _, _, hgives⟩ := Sql.forall₂_mem_right hitems ht
    exact (Document.table_gives hgives (hitemKeys item hitem)).1
  · obtain ⟨_, _, hrelations⟩ := hread.relations
    obtain ⟨items, -, hitemKeys, hitems⟩ :=
      Document.records_gives hrelations (Document.hasDistinctKeys_entry hstateKeys "relations")
    obtain ⟨item, hitem, _, _, hgives⟩ := Sql.forall₂_mem_right hitems hr
    exact (Document.relation_gives hgives (hitemKeys item hitem)).1

end Project

/-! ## Names that are texts -/

/-- A document that holds nothing but a state. -/
def stateDocument (entries : Patch) : Value :=
  .object [("dbcanvas-project", .object [("state", .object entries)])]

end SchemaDesk
