import SchemaDesk.Proofs.Sql.Script
import SchemaDesk.Proofs.Storage.Loaded

/-!
# Constraints in the text of a loaded project

The statement of a relation names its constraint after the first eight characters of the relation's
identifier.  A document may hold any identifiers: two that begin alike give two constraints of one
name, and the name is not quoted.  If it is a word, the statement is read back as exactly one
foreign key, with the columns and the actions of the relation (`ofDocument_constraints`).
-/

namespace SchemaDesk

theorem Choice.admits_action {v : Value} (h : Choice.action.admits v = true) :
    ∃ action : ReferentialAction, v = .str action.name := by
  cases v with
  | str s =>
      obtain ⟨action, -, rfl⟩ := List.mem_map.1 (List.contains_iff_mem.1 h)
      exact ⟨action, rfl⟩
  | _ => cases h

namespace Sql

/-! ## Relations that are written -/

/-- The relations that are written, each with its statement, in order. -/
def emitted (p : Project) : List (Relation × Text) :=
  p.relations.filterMap fun r =>
    match alterTable? p r with
    | .ok (some statement) => some (r, statement)
    | _ => none

/-- The name of the constraint of a relation. -/
def constraintOf (r : Relation) : Text :=
  "fk_" ++ r.id.text.take 8

theorem constraintName_eq {r : Relation} (h : r.id = .str r.id.text) :
    constraintName r.id = .ok (constraintOf r) := by
  rw [constraintOf, h]
  rfl

/-- A relation with its statement, the columns that it joins, and its referential actions. -/
structure IsWritten (p : Project) (r : Relation) (statement : Text) (source : Table) (sc : Column)
    (target : Table) (tc : Column) (onDelete onUpdate : ReferentialAction) : Prop where
  fromColumn : Placed p.tables r.sourceTableId r.sourceColumnId source sc
  toColumn : Placed p.tables r.targetTableId r.targetColumnId target tc
  id : r.id = .str r.id.text
  fromNames : source.name = .str source.name.text ∧ sc.name = .str sc.name.text
  toNames : target.name = .str target.name.text ∧ tc.name = .str tc.name.text
  deletes : r.onDelete = .str onDelete.name
  updates : r.onUpdate = .str onUpdate.name
  text : statement =
    "ALTER TABLE " ++ quoteName (nameQuote p.database) source.name.text ++ " ADD CONSTRAINT " ++
      constraintOf r ++ " FOREIGN KEY (" ++ quoteName (nameQuote p.database) sc.name.text ++
      ") REFERENCES " ++ quoteName (nameQuote p.database) target.name.text ++ "(" ++
      quoteName (nameQuote p.database) tc.name.text ++ ") ON DELETE " ++ onDelete.name ++
      " ON UPDATE " ++ onUpdate.name ++ ";"

section Emitted

variable {p : Project} {r : Relation}

theorem mem_emitted {statement : Text} :
    (r, statement) ∈ emitted p ↔ r ∈ p.relations ∧ alterTable? p r = .ok (some statement) := by
  rw [emitted, List.mem_filterMap]
  constructor
  · rintro ⟨s, hs, h⟩
    split at h
    · next halter =>
        cases h
        exact ⟨hs, halter⟩
    · cases h
  · rintro ⟨hr, halter⟩
    exact ⟨r, hr, by rw [halter]⟩

/-- What is written of the relations is the statements of those that are emitted. -/
theorem map_emitted {alters : List (Option Text)}
    (h : p.relations.mapM (alterTable? p) = .ok alters) :
    alters.filterMap id = (emitted p).map Prod.snd := by
  rw [emitted]
  generalize p.relations = relations at h ⊢
  induction relations generalizing alters with
  | nil => cases h; rfl
  | cons r relations ih =>
      rw [List.mapM_cons] at h
      obtain ⟨first, hfirst, h⟩ := Except.bind_eq_ok.1 h
      obtain ⟨later, hlater, h⟩ := Except.bind_eq_ok.1 h
      cases h
      rw [List.filterMap_cons, List.filterMap_cons, hfirst, ih hlater]
      cases first <;> rfl

end Emitted

section Loaded

variable {p : Project} {r : Relation} {statement : Text}

/-- A relation of a loaded project is written between its columns, which have texts for names. -/
theorem isWritten_of_mem (h : p.IsLoadable) (hsql : p.HasSql)
    (he : (r, statement) ∈ emitted p) :
    ∃ source sc target tc onDelete onUpdate,
      IsWritten p r statement source sc target tc onDelete onUpdate := by
  obtain ⟨hr, halter⟩ := mem_emitted.1 he
  have hsound := checkIntegrity_eq_ok_iff.1 h.sound
  have hnan : ∀ side, (r.columnId side).isNan = false := by
    intro side
    by_contra hnan
    rw [Bool.not_eq_false] at hnan
    have hout := alterTable?_of_isNan hsound hr (by cases side; exact .inl hnan; exact .inr hnan)
    rw [hout] at halter
    cases halter
  obtain ⟨source, sc, hsource⟩ := hsound.exists_placed hr .source (hnan .source)
  obtain ⟨target, tc, htarget⟩ := hsound.exists_placed hr .target (hnan .target)
  obtain ⟨id, htext⟩ := hsql.relations r hr (hnan .source) (hnan .target)
  obtain ⟨s, hs⟩ := (hsql.tables source hsource.mem.1).name
  obtain ⟨c, hc⟩ := ((hsql.tables source hsource.mem.1).columns sc hsource.mem.2).name
  obtain ⟨t, ht⟩ := (hsql.tables target htarget.mem.1).name
  obtain ⟨d, hd⟩ := ((hsql.tables target htarget.mem.1).columns tc htarget.mem.2).name
  obtain ⟨onDelete, hdelete⟩ := Choice.admits_action (h.relations r hr).onDelete
  obtain ⟨onUpdate, hupdate⟩ := Choice.admits_action (h.relations r hr).onUpdate
  have hid : r.id = .str r.id.text := by
    rw [htext]
    rfl
  rw [alterTable?_of_placed hsound hr hsource htarget, addForeignKey, hs, hc, ht, hd,
    constraintName_eq hid, hdelete, hupdate] at halter
  refine ⟨source, sc, target, tc, onDelete, onUpdate, hsource, htarget, hid,
    ⟨by rw [hs]; rfl, by rw [hc]; rfl⟩, ⟨by rw [ht]; rfl, by rw [hd]; rfl⟩, hdelete, hupdate, ?_⟩
  rw [hs, hc, ht, hd]
  exact (Option.some.inj (Except.ok.inj halter)).symm

/-- All relations of a loaded project are written, unless they refer to a column by something that
is not a number. -/
theorem emitted_relations (h : p.IsLoadable) (hsql : p.HasSql) :
    (emitted p).map Prod.fst =
      p.relations.filter fun r => !r.sourceColumnId.isNan && !r.targetColumnId.isNan := by
  have hsound := checkIntegrity_eq_ok_iff.1 h.sound
  rw [emitted, List.map_filterMap, ← List.filterMap_eq_filter]
  refine List.filterMap_congr fun r hr => ?_
  obtain ⟨text?, halter⟩ := (exists_alterTable?_iff hsound hsql.tables hr).2 (hsql.relations r hr)
  by_cases hnan : r.sourceColumnId.isNan = true ∨ r.targetColumnId.isNan = true
  · rw [alterTable?_of_isNan hsound hr hnan]
    rcases hnan with hnan | hnan <;> simp [Option.guard, hnan]
  · rw [not_or, Bool.not_eq_true, Bool.not_eq_true] at hnan
    obtain ⟨source, sc, hsource⟩ := hsound.exists_placed hr .source hnan.1
    obtain ⟨target, tc, htarget⟩ := hsound.exists_placed hr .target hnan.2
    rw [alterTable?_of_placed hsound hr hsource htarget] at halter ⊢
    cases haddition : addForeignKey r source sc target tc p.database with
    | error failure => simp [haddition, Except.map] at halter
    | ok statement => simp [Except.map, Option.guard, hnan]

/-- A constraint that is named by a word can be read. -/
theorem isConstraintName_constraintOf (h : (r.id.text.take 8).all isWordChar = true) :
    IsConstraintName (constraintOf r) := by
  refine ⟨.char '_' :: r.id.text.take 8, rfl, ?_⟩
  rw [List.all_cons, h]
  rfl

/-- If the constraint is named by a word, the statement of a relation is read as one foreign key,
between its columns and with its actions. -/
theorem IsWritten.read {source target : Table} {sc tc : Column}
    {onDelete onUpdate : ReferentialAction}
    (h : IsWritten p r statement source sc target tc onDelete onUpdate) (hp : p.IsLoadable)
    (hword : (r.id.text.take 8).all isWordChar = true) :
    ∃ actions, statements statement = [.alterTable source.name.text.trim actions] ∧
      addedKeys actions = [foreignKeyOf (constraintOf r) sc.name.text target.name.text.trim
        tc.name.text onDelete onUpdate] := by
  have hquote := nameQuote_cases p.database
  have hnamed := isConstraintName_constraintOf hword
  have hname : ∀ t ∈ p.tables, t.name.text.trim ≠ [] := by
    intro t ht
    obtain ⟨name, hname, hne⟩ := (hp.tables t ht).name
    rw [hname]
    exact hne
  have hsource := hname source h.fromColumn.mem.1
  have htarget := hname target h.toColumn.mem.1
  -- the statement is one that was written from pieces
  have hpieces := addForeignKey_eq p.database h.fromNames.1 h.fromNames.2 h.toNames.1 h.toNames.2
    (constraintName_eq h.id) h.deletes h.updates
  have hwritten : addForeignKey r source sc target tc p.database = .ok statement := by
    rw [addForeignKey, h.fromNames.1, h.fromNames.2, h.toNames.1, h.toNames.2,
      constraintName_eq h.id, h.deletes, h.updates, h.text]
    rfl
  rw [Except.ok.inj (hwritten.symm.trans hpieces)]
  exact ⟨_, statements_alter rfl hsource (actionPieces_actions hquote hnamed) hquote,
    addedKeys_actions hquote hnamed rfl htarget⟩

end Loaded

/-- In the text of a project that was read from a document, all relations are written but those
that refer to a column by something that is not a number.  Their constraints have different names
exactly if their identifiers begin differently, and a statement whose constraint is named by a word
is, taken alone, read as one foreign key with the columns and the actions of its relation. -/
theorem ofDocument_constraints {v : Value} {ids ids' : IdSupply} {p : Project}
    (hkeys : v.hasDistinctKeys = true) (h : (Project.ofDocument v).Gives ids p ids')
    {stamp text : Text} (htext : ddl p stamp = .ok text) :
    (∃ creates, (p.tables.mapM fun t => createTable t p.database) = .ok creates ∧
      text = Text.join "\n" (headLines p.name.text stamp ++
        bodyLines creates ((emitted p).map Prod.snd))) ∧
    ((emitted p).map Prod.fst =
      p.relations.filter fun r => !r.sourceColumnId.isNan && !r.targetColumnId.isNan) ∧
    (((emitted p).map fun e => constraintOf e.1).Nodup ↔
      ((emitted p).map fun e => e.1.id.text.take 8).Nodup) ∧
    ∀ r statement, (r, statement) ∈ emitted p → ∃ source sc target tc onDelete onUpdate,
      IsWritten p r statement source sc target tc onDelete onUpdate ∧
        ((r.id.text.take 8).all isWordChar = true →
          ∃ actions, statements statement = [.alterTable source.name.text.trim actions] ∧
            addedKeys actions = [foreignKeyOf (constraintOf r) sc.name.text target.name.text.trim
              tc.name.text onDelete onUpdate]) := by
  have hloadable := Project.ofDocument_isLoadable hkeys h
  have hsql : p.HasSql :=
    (exists_ddl_iff (checkIntegrity_eq_ok_iff.1 hloadable.sound) stamp).1 ⟨text, htext⟩
  refine ⟨?_, emitted_relations hloadable hsql, ?_, fun r statement he => ?_⟩
  · obtain ⟨creates, alters, hcreates, -, halters, rfl⟩ := ddl_eq_ok.1 htext
    exact ⟨creates, hcreates, by rw [map_emitted halters]⟩
  · have hinjective : Function.Injective fun t : Text => Text.ofString "fk_" ++ t :=
      List.append_right_injective _
    have hnodup := List.nodup_map_iff hinjective
      (l := (emitted p).map fun e => e.1.id.text.take 8)
    rwa [List.map_map] at hnodup
  · obtain ⟨source, sc, target, tc, onDelete, onUpdate, hwritten⟩ :=
      isWritten_of_mem hloadable hsql he
    exact ⟨source, sc, target, tc, onDelete, onUpdate, hwritten, hwritten.read hloadable⟩

/-- A document that is read as a project with a text, and this project passes a check. -/
theorem exists_exported {v : Value} {stamp : Text} {check : Project → Bool}
    (h : ((Project.ofDocument v).runFrom {}).1.toOption.any
      (fun p => (ddl p stamp).toOption.isSome && check p) = true) :
    ∃ p ids' text, (Project.ofDocument v).Gives {} p ids' ∧ ddl p stamp = .ok text ∧
      check p = true := by
  obtain ⟨p, hgives, hcheck⟩ := Minting.gives_of_any h rfl
  rw [Bool.and_eq_true] at hcheck
  cases htext : ddl p stamp with
  | error failure =>
      rw [htext] at hcheck
      cases hcheck.1
  | ok text => exact ⟨p, _, text, hgives, htext, hcheck.2⟩

/-- A document with two relations of the given identifiers. -/
def tradeDocument (first second : Text) : Value :=
  stateDocument
    [("id", "p"),
      ("tables", .list
        [.object
          [("id", "t"), ("name", "trades"),
            ("columns", .list
              [.object [("id", "b"), ("name", "buyer")],
                .object [("id", "s"), ("name", "seller")]])],
          .object
            [("id", "u"), ("name", " people "),
              ("columns", .list [.object [("id", "n"), ("name", "no")]])]]),
      ("relations", .list
        [.object
          [("id", .str first), ("source_table_id", "t"), ("source_column_id", "b"),
            ("target_table_id", "u"), ("target_column_id", "n"), ("on_delete", "SET NULL")],
          .object
            [("id", .str second), ("source_table_id", "t"), ("source_column_id", "s"),
              ("target_table_id", "u"), ("target_column_id", "n")]])]

/-- Two relations whose identifiers begin with different words. -/
theorem ofDocument_constraints_words :
    (tradeDocument "relation-1" "customers").hasDistinctKeys = true ∧ ∃ p ids' text,
      (Project.ofDocument (tradeDocument "relation-1" "customers")).Gives {} p ids' ∧
      ddl p "2026-01-02T03:04:05" = .ok text ∧
      (emitted p).length = 2 ∧ ((emitted p).map fun e => constraintOf e.1).Nodup ∧
      ∀ e ∈ emitted p, ∃ name actions key, statements e.2 = [.alterTable name actions] ∧
        addedKeys actions = [key] ∧ key.name = some (constraintOf e.1) := by
  have hkeys : (tradeDocument "relation-1" "customers").hasDistinctKeys = true := by
    decide +kernel
  have hread : ((Project.ofDocument (tradeDocument "relation-1" "customers")).runFrom
      {}).1.toOption.any (fun p =>
        (ddl p "2026-01-02T03:04:05").toOption.isSome && decide ((emitted p).length = 2 ∧
          ((emitted p).map fun e => e.1.id.text.take 8).Nodup ∧
          ∀ e ∈ emitted p, (e.1.id.text.take 8).all isWordChar = true)) = true := by
    decide +kernel
  obtain ⟨p, ids', text, hgives, htext, hcheck⟩ := exists_exported hread
  obtain ⟨hlength, hdistinct, hwords⟩ := of_decide_eq_true hcheck
  obtain ⟨-, -, hnames, hevery⟩ := ofDocument_constraints hkeys hgives htext
  refine ⟨hkeys, p, ids', text, hgives, htext, hlength, hnames.2 hdistinct, fun e he => ?_⟩
  obtain ⟨source, sc, target, tc, onDelete, onUpdate, -, hword⟩ := hevery e.1 e.2 he
  obtain ⟨actions, hstatements, hadded⟩ := hword (hwords e he)
  exact ⟨_, actions, _, hstatements, hadded, rfl⟩

/-- The foreign keys that are read from a text that asks something of tables. -/
def keysRead (text : Text) : List ForeignKey :=
  (statements text).flatMap fun
    | .alterTable _ actions => addedKeys actions
    | .createTable .. => []

/-- Identifiers that begin alike name two constraints alike, and from the statement of a relation
whose identifier begins with anything but a word no foreign key need be read. -/
theorem ofDocument_constraints_clash :
    (∃ p ids' text,
      (Project.ofDocument (tradeDocument "relation-1" "relation-2")).Gives {} p ids' ∧
      p.relations.map Relation.id = [.str "relation-1", .str "relation-2"] ∧
      ddl p "2026-01-02T03:04:05" = .ok text ∧
      (emitted p).map (fun e => constraintOf e.1) = ["fk_relation", "fk_relation"]) ∧
    ∃ p ids' text,
      (Project.ofDocument (tradeDocument "rel-1" "rel-2")).Gives {} p ids' ∧
      p.relations.map Relation.id = [.str "rel-1", .str "rel-2"] ∧
      ddl p "2026-01-02T03:04:05" = .ok text ∧
      (emitted p).map (fun e => constraintOf e.1) = ["fk_rel-1", "fk_rel-2"] ∧
      (emitted p).map (fun e => keysRead e.2) = [[], []] := by
  constructor
  · have hread : ((Project.ofDocument (tradeDocument "relation-1" "relation-2")).runFrom
        {}).1.toOption.any (fun p => (ddl p "2026-01-02T03:04:05").toOption.isSome && decide
          (p.relations.map Relation.id = [.str "relation-1", .str "relation-2"] ∧
            (emitted p).map (fun e => constraintOf e.1) =
              ["fk_relation", "fk_relation"])) = true := by
      decide +kernel
    obtain ⟨p, ids', text, hgives, htext, hcheck⟩ := exists_exported hread
    obtain ⟨hids, hnames⟩ := of_decide_eq_true hcheck
    exact ⟨p, ids', text, hgives, hids, htext, hnames⟩
  · have hread : ((Project.ofDocument (tradeDocument "rel-1" "rel-2")).runFrom
        {}).1.toOption.any (fun p => (ddl p "2026-01-02T03:04:05").toOption.isSome && decide
          (p.relations.map Relation.id = [.str "rel-1", .str "rel-2"] ∧
            (emitted p).map (fun e => constraintOf e.1) = ["fk_rel-1", "fk_rel-2"] ∧
            (emitted p).map (fun e => keysRead e.2) = [[], []])) = true := by
      decide +kernel
    obtain ⟨p, ids', text, hgives, htext, hcheck⟩ := exists_exported hread
    obtain ⟨hids, hkeys⟩ := of_decide_eq_true hcheck
    exact ⟨p, ids', text, hgives, hids, htext, hkeys⟩

end Sql

end SchemaDesk
