import SchemaDesk.Proofs.Edit.Merged

/-!
# Tables joined by name

A merge goes through the tables of the project and through the declared ones, and decides from what
is still to come whether a table is the last of its name.  This module says the same without the
order of the work: `lastNamed?` is the last table of a name, the declarations that count are those
that are last of their names (`lastDeclarations_eq`), and a table is joined exactly when it is the
last of its name and the name is declared (`joinAll_eq`).

A joined table takes over the declared columns, each under the identifier that `takenId` gives,
which depends on the columns declared before it.  `placed` is what becomes of a declaration that
counts, joined or new, and it is the last table of its name after the merge
(`lastNamed?_joinedTables`).
-/

namespace SchemaDesk

/-- Tables that are named by text, none of which is listed twice. -/
structure Named (tables : List Table) : Prop where
  nodup : tables.Nodup
  names : ∀ t ∈ tables, ∃ s, t.name = .str s

theorem Named.of_cons {t : Table} {tables : List Table} (h : Named (t :: tables)) :
    Named tables :=
  ⟨(List.nodup_cons.1 h.nodup).2, fun u hu => h.names u (List.mem_cons_of_mem _ hu)⟩

/-- Typed tables of different identifiers can be told apart by what they are. -/
theorem Named.of_isTyped {tables : List Table} (htyped : ∀ t ∈ tables, t.IsTyped)
    (hids : (tables.map (·.id.canon)).Nodup) : Named tables :=
  ⟨List.Nodup.of_map _ hids, fun t ht => (htyped t ht).name⟩

/-- The last of some tables that has a name. -/
def lastNamed? (tables : List Table) (name : Value) : Option Table :=
  tables.reverse.find? (·.name.sameName name)

section LastNamed

variable {tables : List Table} {t u : Table} {name name' : Value}

theorem Value.sameName_self {v : Value} (h : ∃ s, v = .str s) : v.sameName v = true := by
  obtain ⟨s, rfl⟩ := h
  exact sameName_iff.2 ⟨s, s, rfl, rfl, rfl⟩

/-- Names that are the same are the same as the same names. -/
theorem Value.sameName_congr {a b : Value} (h : a.sameName b = true) (v : Value) :
    v.sameName a = v.sameName b := by
  rw [Bool.eq_iff_iff]
  constructor
  · exact fun hv => sameName_trans hv h
  · rw [sameName_comm] at h
    exact fun hv => sameName_trans hv h

theorem lastNamed?_eq_some (h : lastNamed? tables name = some t) :
    t ∈ tables ∧ t.name.sameName name = true := by
  have hname := List.find?_some h
  exact ⟨List.mem_reverse.1 (List.mem_of_find?_eq_some h), hname⟩

theorem lastNamed?_eq_none :
    lastNamed? tables name = none ↔ ∀ t ∈ tables, t.name.sameName name = false := by
  simp [lastNamed?]

theorem lastNamed?_isSome :
    (lastNamed? tables name).isSome = tables.any (·.name.sameName name) := by
  rw [lastNamed?, List.isSome_find?, List.any_reverse]

theorem lastNamed?_congr (h : name.sameName name' = true) :
    lastNamed? tables name = lastNamed? tables name' := by
  rw [lastNamed?, lastNamed?]
  congr 1
  exact funext fun t => Value.sameName_congr h t.name

theorem lastNamed?_append (tables tables' : List Table) (name : Value) :
    lastNamed? (tables ++ tables') name =
      (lastNamed? tables' name).or (lastNamed? tables name) := by
  rw [lastNamed?, List.reverse_append, List.find?_append, lastNamed?, lastNamed?]

theorem lastNamed?_cons (t : Table) (tables : List Table) (name : Value) :
    lastNamed? (t :: tables) name =
      (lastNamed? tables name).or (if t.name.sameName name then some t else none) := by
  rw [← List.singleton_append, lastNamed?_append]
  congr 1
  rw [lastNamed?, List.reverse_singleton, List.find?_singleton]

/-- A change of tables that keeps their names changes what is found. -/
theorem lastNamed?_map {f : Table → Table} (h : ∀ t, (f t).name = t.name) (tables : List Table)
    (name : Value) : lastNamed? (tables.map f) name = (lastNamed? tables name).map f := by
  rw [lastNamed?, lastNamed?, ← List.map_reverse, find?_map_of_keeps]
  intro t
  rw [h]

/-- A table in front of others of its name is not found. -/
theorem lastNamed?_cons_of_mem (h : Named (t :: tables)) (hu : u ∈ tables) :
    lastNamed? (t :: tables) u.name = lastNamed? tables u.name := by
  rw [lastNamed?_cons]
  cases hfind : lastNamed? tables u.name with
  | some v => rfl
  | none =>
      have hnone := lastNamed?_eq_none.1 hfind u hu
      rw [Value.sameName_self (h.of_cons.names u hu)] at hnone
      contradiction

/-- The first table is the last of its name when no other has the name. -/
theorem lastNamed?_cons_self (h : Named (t :: tables)) :
    lastNamed? (t :: tables) t.name = some t ↔ tables.any (·.name.sameName t.name) = false := by
  rw [lastNamed?_cons, ← lastNamed?_isSome,
    if_pos (Value.sameName_self (h.names t List.mem_cons_self))]
  cases hfind : lastNamed? tables t.name with
  | none => simp
  | some u =>
      simp only [Option.some_or, Option.some.injEq, Option.isSome_some, Bool.true_eq_false,
        iff_false]
      rintro rfl
      exact (List.nodup_cons.1 h.nodup).1 (lastNamed?_eq_some hfind).1

end LastNamed

namespace Edit.Merge

/-! ## The declarations that count -/

theorem find?_lastDeclarations (declared : List Table) (name : Value) :
    (lastDeclarations declared).find? (·.name.sameName name) = lastNamed? declared name := by
  induction declared with
  | nil => rfl
  | cons t declared ih =>
      rw [lastDeclarations, lastNamed?_cons]
      by_cases hagain : declared.any (·.name.sameName t.name) = true
      · rw [if_pos hagain, ih]
        cases hfind : lastNamed? declared name with
        | some u => rfl
        | none =>
            -- a later table has the name of `t`, so with it `t` would not be passed over either
            have hother : t.name.sameName name = false := by
              rw [← Bool.not_eq_true]
              intro hname
              rw [← lastNamed?_isSome, lastNamed?_congr hname, hfind] at hagain
              contradiction
            rw [hother, if_neg Bool.false_ne_true]
            rfl
      · rw [if_neg hagain, List.find?_cons, ih]
        by_cases hname : t.name.sameName name = true
        · have hnone : lastNamed? declared name = none := by
            rw [← lastNamed?_congr hname, ← Option.not_isSome_iff_eq_none, lastNamed?_isSome]
            exact hagain
          rw [hname, hnone]
          rfl
        · rw [Bool.not_eq_true] at hname
          simp [hname]

/-- The declarations that count are those that are the last of their names. -/
theorem lastDeclarations_eq {declared : List Table} (h : Named declared) :
    lastDeclarations declared =
      declared.filter fun d => lastNamed? declared d.name = some d := by
  induction declared with
  | nil => rfl
  | cons t declared ih =>
      -- for the tables after `t` it makes no difference that `t` stands in front of them
      have hrest : declared.filter (fun d => lastNamed? (t :: declared) d.name = some d) =
          declared.filter fun d => lastNamed? declared d.name = some d := by
        refine List.filter_congr fun d hd => ?_
        rw [lastNamed?_cons_of_mem h hd]
      rw [lastDeclarations, ih h.of_cons, List.filter_cons, hrest]
      have hlast := lastNamed?_cons_self h
      by_cases hagain : declared.any (·.name.sameName t.name) = true
      · have hpassed : ¬lastNamed? (t :: declared) t.name = some t := by
          rw [hlast, hagain]
          exact Bool.noConfusion
        rw [if_pos hagain, if_neg (by simpa using hpassed)]
      · rw [Bool.not_eq_true] at hagain
        rw [if_neg (by simp [hagain]), if_pos (by simpa using hlast.2 hagain)]

theorem mem_lastDeclarations_iff {declared : List Table} (h : Named declared) {d : Table} :
    d ∈ lastDeclarations declared ↔ d ∈ declared ∧ lastNamed? declared d.name = some d := by
  rw [lastDeclarations_eq h, List.mem_filter, decide_eq_true_iff]

/-! ## Columns taken over -/

/-- The column whose identifier a declared column takes over, if there is one: the last existing
column of its name, unless a column of the name was declared earlier. -/
def prior? (existing earlier : List Column) (c : Column) : Option Column :=
  if earlier.any (·.name.sameName c.name) then none
  else existing.reverse.find? (·.name.sameName c.name)

/-- The identifier of a declared column in a joined table. -/
def takenId (existing earlier : List Column) (c : Column) : Value :=
  ((prior? existing earlier c).map Column.id).getD c.id

/-- Declared columns in place of existing ones. -/
def takenColumns (existing declared : List Column) : List Column :=
  declared.mapIdx fun i c => { c with id := takenId existing (declared.take i) c }

theorem prior?_perm {existing earlier earlier' : List Column} (h : earlier.Perm earlier')
    (c : Column) : prior? existing earlier c = prior? existing earlier' c := by
  rw [prior?, prior?, h.any_eq]

theorem pairColumns_eq (existing earlier declared : List Column) :
    pairColumns existing earlier declared =
      declared.mapIdx fun i c => (c, prior? existing (earlier ++ declared.take i) c) := by
  induction declared generalizing earlier with
  | nil => rfl
  | cons c declared ih =>
      rw [pairColumns, ih, List.mapIdx_cons, List.take_zero, List.append_nil]
      congr 1
      refine List.mapIdx_eq_mapIdx_iff.2 fun i hi => ?_
      rw [List.take_succ_cons]
      congr 1
      exact prior?_perm List.perm_middle.symm _

theorem joinedColumn_prior? (existing earlier : List Column) (c : Column) :
    joinedColumn (c, prior? existing earlier c) =
      { c with id := takenId existing earlier c } := by
  rw [joinedColumn, takenId]
  cases prior? existing earlier c <;> rfl

theorem map_mapIdx {α β γ : Type} (f : Nat → α → β) (g : β → γ) (xs : List α) :
    (xs.mapIdx f).map g = xs.mapIdx fun i x => g (f i x) :=
  List.ext_getElem (by simp) (by simp)

theorem join_eq (existing declared : Table) :
    join existing declared =
      { existing with columns := takenColumns existing.columns declared.columns } := by
  rw [join, pairColumns_eq, map_mapIdx, takenColumns]
  simp only [List.nil_append, joinedColumn_prior?]

/-! ## Joined tables -/

/-- A table of a project after a merge with declared tables, up to the marks of its columns. -/
def mergedTable (tables declared : List Table) (t : Table) : Table :=
  match lastNamed? declared t.name with
  | some d =>
      if lastNamed? tables t.name = some t then
        { t with columns := takenColumns t.columns d.columns }
      else t
  | none => t

/-- The declarations that become new tables: those that count and have a name of their own. -/
def newDeclarations (tables declared : List Table) : List Table :=
  declared.filter fun d =>
    lastNamed? declared d.name = some d ∧ lastNamed? tables d.name = none

section MergedTable

variable {tables declared : List Table} {t : Table}

theorem mergedTable_of_last (h : lastNamed? tables t.name = some t) :
    mergedTable tables declared t = ((lastNamed? declared t.name).map (join t)).getD t := by
  rw [mergedTable]
  cases lastNamed? declared t.name with
  | none => rfl
  | some d =>
      rw [Option.map_some, Option.getD_some, join_eq]
      exact if_pos h

theorem mergedTable_of_not_last (h : lastNamed? tables t.name ≠ some t) :
    mergedTable tables declared t = t := by
  rw [mergedTable]
  cases lastNamed? declared t.name with
  | none => rfl
  | some d => exact if_neg h

/-- A merge leaves everything of a table as it was but its columns. -/
theorem mergedTable_columns (tables declared : List Table) (t : Table) :
    mergedTable tables declared t =
      { t with columns := (mergedTable tables declared t).columns } := by
  rw [mergedTable]
  split
  · split <;> rfl
  · rfl

theorem mergedTable_name (tables declared : List Table) (t : Table) :
    (mergedTable tables declared t).name = t.name := by
  rw [mergedTable_columns]

end MergedTable

theorem joinAll_eq {tables : List Table} (declared : List Table) (h : Named tables) :
    joinAll (lastDeclarations declared) tables = tables.map (mergedTable tables declared) := by
  induction tables with
  | nil => rfl
  | cons t tables ih =>
      have hrest : tables.map (mergedTable (t :: tables) declared) =
          tables.map (mergedTable tables declared) := by
        refine List.map_congr_left fun u hu => ?_
        rw [mergedTable, mergedTable, lastNamed?_cons_of_mem h hu]
      have hlast := lastNamed?_cons_self h
      rw [joinAll, ih h.of_cons, List.map_cons, hrest, find?_lastDeclarations]
      congr 1
      by_cases hagain : tables.any (·.name.sameName t.name) = true
      · have hpassed : lastNamed? (t :: tables) t.name ≠ some t := by
          rw [Ne, hlast, hagain]
          exact Bool.noConfusion
        rw [if_pos hagain, mergedTable_of_not_last hpassed]
      · rw [Bool.not_eq_true] at hagain
        rw [hagain, if_neg Bool.false_ne_true, mergedTable_of_last (hlast.2 hagain)]

theorem newTables_eq {declared : List Table} (tables : List Table) (h : Named declared) :
    newTables (lastDeclarations declared) tables = newDeclarations tables declared := by
  rw [newTables, lastDeclarations_eq h, List.filter_filter, newDeclarations]
  refine List.filter_congr fun d _ => ?_
  rw [← lastNamed?_isSome, Bool.and_comm, Bool.decide_and]
  congr 1
  cases lastNamed? tables d.name <;> rfl

/-- The tables of a merge before their references are renamed. -/
theorem joinedTables_eq {p : Project} {declared : List Table} (hp : Named p.tables)
    (hdeclared : Named declared) :
    joinedTables p declared =
      p.tables.map (mergedTable p.tables declared) ++ newDeclarations p.tables declared := by
  rw [joinedTables, joinAll_eq declared hp, newTables_eq p.tables hdeclared]

/-- What becomes of a declaration that counts: the table that it is joined with, or a new table. -/
def placed (tables : List Table) (d : Table) : Table :=
  match lastNamed? tables d.name with
  | some t => { t with columns := takenColumns t.columns d.columns }
  | none => d

/-- A declaration that counts is found by its name after the merge. -/
theorem lastNamed?_joinedTables {p : Project} {declared : List Table} (hp : Named p.tables)
    (hdeclared : Named declared) {d : Table} (hd : lastNamed? declared d.name = some d) :
    lastNamed? (joinedTables p declared) d.name = some (placed p.tables d) := by
  obtain ⟨hmem, hself⟩ := lastNamed?_eq_some hd
  rw [joinedTables_eq hp hdeclared, lastNamed?_append, lastNamed?_map (mergedTable_name _ _),
    placed]
  cases hpartner : lastNamed? p.tables d.name with
  | none =>
      -- of this name there is one new table, since one declaration counts
      have hnew : lastNamed? (newDeclarations p.tables declared) d.name = some d := by
        refine find?_eq_of_unique (List.mem_reverse.2 ?_) hself fun e he hname => ?_
        · exact List.mem_filter.2 ⟨hmem, decide_eq_true ⟨hd, hpartner⟩⟩
        · have hlast := of_decide_eq_true (List.mem_filter.1 (List.mem_reverse.1 he)).2
          have hfound := hlast.1
          rw [lastNamed?_congr hname, hd] at hfound
          exact (Option.some.inj hfound).symm
      rw [hnew]
      rfl
  | some t =>
      -- no new table has the name, so the last one is the table that was joined
      have hold : lastNamed? (newDeclarations p.tables declared) d.name = none := by
        refine lastNamed?_eq_none.2 fun e he => ?_
        rw [← Bool.not_eq_true]
        intro hname
        have hnone := (of_decide_eq_true (List.mem_filter.1 he).2).2
        rw [lastNamed?_congr hname, hpartner] at hnone
        cases hnone
      have hname := (lastNamed?_eq_some hpartner).2
      have hlast : lastNamed? p.tables t.name = some t := by
        rw [lastNamed?_congr hname, hpartner]
      rw [hold, Option.none_or, Option.map_some, mergedTable_of_last hlast, lastNamed?_congr hname,
        hd, Option.map_some, Option.getD_some, join_eq]

end Edit.Merge

end SchemaDesk
