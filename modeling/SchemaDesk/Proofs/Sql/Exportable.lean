import Mathlib.Data.Set.List
import SchemaDesk.Proofs.Sql.Resolution
import SchemaDesk.Proofs.Sql.Script
import SchemaDesk.Proofs.Sql.Unreadable

/-!
# What is read can be written

Whatever a text looks like, what is read from it is within what can be written and read back: names
of tables come out trimmed, the type of a column is one of those known even if its keyword is not,
sizes are natural numbers short enough to be read again, and a relation is identified by an
identifier that was drawn.  Only names can stand in the way, where two tables or two columns of a
table share one (`parse_exportable`).
-/

namespace SchemaDesk

namespace Sql

open Minting
open Flags (hinted)

variable {ids ids' : IdSupply}

/-! ## Arguments of types -/

/-- A number that is read from an argument has no more digits than can be read. -/
theorem numberArgument_isCount {argument : Text} {v : Value} (h : numberArgument argument = .ok v) :
    v.IsCount := by
  rw [numberArgument] at h
  split at h
  · next hdigits =>
      obtain ⟨hne, hall⟩ := hdigits
      obtain ⟨cs, hcs, hdigit⟩ := exists_ofChars (List.all_eq_true.1 hall)
      rw [hcs] at h hne
      have hnonempty : cs ≠ [] := by
        rintro rfl
        exact hne rfl
      rw [Value.toInteger] at h
      cases hread : Numeral.toInt? (Text.ofChars cs) with
      | none =>
          rw [hread] at h
          cases h
      | some i =>
          rw [hread] at h
          cases h
          obtain ⟨n, rfl, hlength⟩ := Numeral.exists_of_toInt?_run hdigit hnonempty hread
          exact .inr ⟨n, rfl, hlength⟩
  · cases h
    exact .inl rfl

theorem numberArgumentAt_isCount {arguments : List Text} {position : Nat} {v : Value}
    (h : numberArgumentAt arguments position = .ok v) : v.IsCount := by
  rw [numberArgumentAt] at h
  split at h
  · exact numberArgument_isCount h
  · cases h
    exact .inl rfl

theorem members_isMembers (arguments : List Text) : (Value.list (members arguments)).IsMembers := by
  have hstr : ∀ v ∈ members arguments, v ∈ Set.range Value.str := by
    intro v hv
    obtain ⟨argument, -, hv⟩ := List.mem_filterMap.1 hv
    split at hv
    · exact ⟨_, Option.some.inj hv⟩
    · cases hv
  obtain ⟨texts, htexts⟩ : members arguments ∈ Set.range (List.map Value.str) := by
    rw [Set.range_list_map]
    exact hstr
  exact .inr ⟨texts, congrArg Value.list htexts.symm⟩

/-- What the arguments of a type say can be written. -/
structure TypeArguments.IsWritable (a : TypeArguments) : Prop where
  size : a.size.IsCount
  precision : a.precision.IsCount
  scale : a.scale.IsCount
  members : a.enumValues.IsMembers

theorem typeArguments_isWritable {type : DataType} {arguments : List Text} {a : TypeArguments}
    (h : typeArguments type arguments = .ok a) : a.IsWritable := by
  have hnull : Value.IsCount .null := .inl rfl
  have hnone : Value.IsMembers .null := .inl rfl
  have hsize : ∀ {a}, (numberArgumentAt arguments 0 >>= fun size => .ok { size }) = .ok a →
      TypeArguments.IsWritable a := by
    intro a h
    obtain ⟨size, hread, h⟩ := Except.bind_eq_ok.1 h
    cases h
    exact ⟨numberArgumentAt_isCount hread, hnull, hnull, hnone⟩
  have hprecise : ∀ {a}, (numberArgumentAt arguments 0 >>= fun precision =>
      numberArgumentAt arguments 1 >>= fun scale => .ok { precision, scale }) = .ok a →
      TypeArguments.IsWritable a := by
    intro a h
    obtain ⟨precision, hread, h⟩ := Except.bind_eq_ok.1 h
    obtain ⟨scale, hreadScale, h⟩ := Except.bind_eq_ok.1 h
    cases h
    exact ⟨hnull, numberArgumentAt_isCount hread, numberArgumentAt_isCount hreadScale, hnone⟩
  cases type with
  | varchar | char | binary => exact hsize h
  | decimal | float => exact hprecise h
  | enum | set =>
      cases h
      exact ⟨hnull, hnull, hnull, members_isMembers arguments⟩
  | _ =>
      cases h
      exact ⟨hnull, hnull, hnull, hnone⟩

/-! ## Tables -/

/-- A column that is declared can be written, with the keys of its table marked on it. -/
theorem columnOf_isWritable {clause : ColumnClause} {a : TypeArguments} (h : a.IsWritable)
    (id : Text) (clauses : List Clause) : (keyed clauses (columnOf clause a id)).IsWritable :=
  ⟨⟨clause.name, rfl⟩, ⟨typeOf clause.rawType, rfl⟩, h.size, h.precision, h.scale, h.members⟩

theorem hinted_isWritable {c : Column} (h : c.IsWritable) (relations : List Relation) (t : Value) :
    (hinted relations t c).IsWritable := by
  rw [hinted]
  cases Flags.lastFrom? relations t c.id with
  | none => exact h
  | some r => exact ⟨h.name, h.type, h.size, h.precision, h.scale, h.members⟩

theorem createTurn_name {tokens left : List Token} {name body : Text} {options : TableOptions}
    (h : createTurn tokens = .next (some (.createTable name body options)) left) :
    name.trim = name ∧ name ≠ [] := by
  simp only [createTurn] at h
  split at h
  · cases h
  · next rest _ =>
      rcases hread : readName (skipPhrase ["IF", "NOT", "EXISTS"] rest) with ⟨found, later⟩
      rcases hgroup : readGroup later with ⟨group, last⟩
      simp only [hread, hgroup] at h
      cases found with
      | none => cases h
      | some n =>
          cases group with
          | none => cases h
          | some b =>
              cases h
              exact readName_trimmed hread

theorem alterTurn_ne {text name body : Text} {tokens left : List Token} {options : TableOptions} :
    alterTurn text tokens ≠ .next (some (.createTable name body options)) left := by
  intro h
  simp only [alterTurn] at h
  split at h
  · cases h
  · split at h <;> cases h

/-- The names of the tables that a text declares are trimmed. -/
theorem createTable_name {sql name body : Text} {options : TableOptions}
    (h : .createTable name body options ∈ statements sql) : name.trim = name ∧ name ≠ [] := by
  obtain ⟨t, rest, left, hturn⟩ := mem_turns h
  rw [statementTurn] at hturn
  split at hturn
  · exact createTurn_name hturn
  · split at hturn
    · exact absurd hturn alterTurn_ne
    · cases hturn

/-- A table that a text declares can be written, if no two of its columns share a name. -/
theorem built_isWritable {n : Nat} {sql : Text} {built : List Built}
    (h : (buildAll n (statements sql)).Gives ids built ids') {b : Built} (hb : b ∈ built)
    (hdistinct : (b.table.columns.map fun c => Text.fold c.name.text).Nodup) :
    b.table.IsWritable := by
  obtain ⟨hne, name, body, options, index, before, after, hmem, -, hbuild⟩ := mem_buildAll h hb
  obtain ⟨columns, mid, hcolumns, htable, -⟩ := buildTable_gives.1 hbuild
  obtain ⟨htrim, hname⟩ := createTable_name hmem
  refine ⟨⟨name, by rw [htable]; rfl, htrim, hname⟩, hne, fun c hc => ?_, hdistinct⟩
  rw [htable] at hc
  obtain ⟨d, hd, rfl⟩ := List.mem_map.1 hc
  obtain ⟨clause, -, arguments, id, harguments, rfl⟩ :=
    forall₂_mem_right (buildColumns_drawn hcolumns).2 hd
  exact columnOf_isWritable (typeArguments_isWritable harguments) id b.clauses

/-! ## Projects -/

theorem relationsOf_isWritable {mid : IdSupply} {ls : List Link} {r : Relation}
    (hr : r ∈ relationsOf mid ls) : r.IsWritable := by
  obtain ⟨i, hi, rfl⟩ := List.mem_mapIdx.1 hr
  exact ⟨⟨_, rfl⟩, ⟨ls[i].key.onDelete, rfl⟩, ⟨ls[i].key.onUpdate, rfl⟩⟩

/-- A project of what is read from a text can be exported, if its name is one line and no two
tables, and no two columns of a table, share a name. -/
theorem parse_exportable {sql : Text} {parsed : Parsed} (h : (parse sql).Gives ids parsed ids')
    (htables : (parsed.tables.map fun t => Text.fold t.name.text).Nodup)
    (hcolumns : ∀ t ∈ parsed.tables, (t.columns.map fun c => Text.fold c.name.text).Nodup)
    {p : Project} (hname : .char '\n' ∉ p.name.text) (hpt : p.tables = parsed.tables)
    (hpr : p.relations = parsed.relations) : p.IsExportable := by
  have hdeclares := parse_declares h
  obtain ⟨built, mid, hbuilt, hrelations, -, hdecorated⟩ := parse_links h
  refine ⟨?_, hname, ?_, ?_, ?_, ?_⟩
  · rw [checkIntegrity_eq_ok_iff, hpt, hpr]
    exact hdeclares.sound
  · rw [hpt]
    intro t ht
    have hdistinct := hcolumns t ht
    rw [hdecorated] at ht
    obtain ⟨u, hu, rfl⟩ := List.mem_map.1 ht
    obtain ⟨b, hb, rfl⟩ := List.mem_map.1 hu
    -- marks change neither names nor what is written of a column
    have hnames : (decorate (hinted parsed.relations) b.table).columns.map
        (fun c => Text.fold c.name.text) = b.table.columns.map fun c => Text.fold c.name.text := by
      simp only [decorate, List.map_map]
      refine List.map_congr_left fun c _ => ?_
      rw [Function.comp_apply, (spares_hinted parsed.relations).columnName b.table c]
    rw [hnames] at hdistinct
    have hwritable := built_isWritable hbuilt hb hdistinct
    refine ⟨hwritable.name, ?_, fun c hc => ?_, hnames ▸ hdistinct⟩
    · show b.table.columns.map _ ≠ []
      rw [ne_eq, List.map_eq_nil_iff]
      exact hwritable.nonempty
    · obtain ⟨d, hd, rfl⟩ := List.mem_map.1 hc
      exact hinted_isWritable (hwritable.columns d hd) _ _
  · rw [hpt]
    exact htables
  · rw [hpt]
    intro t ht c hc
    exact Value.isNan_of_text (hdeclares.columnId ht (List.mem_map_of_mem hc))
  · rw [hpr, hrelations]
    exact fun r hr => relationsOf_isWritable hr

end Sql

end SchemaDesk
