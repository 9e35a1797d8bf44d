import SchemaDesk.Proofs.Edit.Named

/-!
# Where declared identifiers go

A merge renames the identifiers of the declared tables and columns that are joined.  The two
renamings, `tableMoves` and `columnMoves`, are lists in which the last entry of a key counts; since
no identifier is declared twice there is at most one (`renamed_filterMap`).  So they take a
declaration that counts to the table that it is placed in, identifier by identifier
(`tableMoves_placed`, `columnMoves_placed`), and leave all other identifiers alone.

The declared relations follow under the new identifiers of their ends, without those that join
columns which are joined already (`foldl_addRelation_eq`).
-/

namespace SchemaDesk.Edit.Merge

/-! ## Renamings -/

theorem renamed_of_not_key {changes : Renaming} {id : Value}
    (h : ∀ change ∈ changes, change.1.canon ≠ id.canon) : renamed changes id = id := by
  have hnone : changes.reverse.find? (·.1.same id) = none := by
    refine List.find?_eq_none.2 fun change hchange hsame => ?_
    exact h change (List.mem_reverse.1 hchange) (Value.same_iff.1 hsame)
  rw [renamed, hnone]
  rfl

/-- What takes the place of a key that stands for one thing only. -/
theorem renamed_filterMap {α : Type} {key : α → Value} {value : α → Option Value} {xs : List α}
    (hkeys : (xs.map fun x => (key x).canon).Nodup) {x : α} (hx : x ∈ xs) :
    renamed (xs.filterMap fun x => (value x).map (key x, ·)) (key x) = (value x).getD (key x) := by
  -- a key belongs to one element, so at most one entry has it
  have hentry : ∀ entry ∈ xs.filterMap fun x => (value x).map (key x, ·),
      entry.1.canon = (key x).canon → value x = some entry.2 ∧ entry.1 = key x := by
    intro entry hmem hcanon
    obtain ⟨y, hy, hvalue⟩ := List.mem_filterMap.1 hmem
    obtain ⟨b, hb, rfl⟩ := Option.map_eq_some_iff.1 hvalue
    cases List.inj_on_of_nodup_map hkeys hy hx hcanon
    exact ⟨hb, rfl⟩
  cases hvalue : value x with
  | none =>
      refine renamed_of_not_key fun entry hmem hcanon => ?_
      have hsome := (hentry entry hmem hcanon).1
      rw [hvalue] at hsome
      cases hsome
  | some b =>
      have hfind : (xs.filterMap fun x => (value x).map (key x, ·)).reverse.find?
          (·.1.same (key x)) = some (key x, b) := by
        refine find?_eq_of_unique (List.mem_reverse.2 (List.mem_filterMap.2 ⟨x, hx, ?_⟩))
          (Value.same_iff.2 rfl) fun entry hmem hsame => ?_
        · rw [hvalue]
          rfl
        · have hown := hentry entry (List.mem_reverse.1 hmem) (Value.same_iff.1 hsame)
          rw [hvalue, Option.some.injEq] at hown
          exact Prod.ext hown.2 hown.1.symm
      rw [renamed, hfind]
      rfl

/-! ## Columns of a declaration -/

/-- The columns of a declaration, each with the column whose identifier it takes over. -/
def pairsOf (tables : List Table) (d : Table) : List (Column × Option Column) :=
  match partner? tables d with
  | none => d.columns.map (·, none)
  | some t => pairColumns t.columns [] d.columns

theorem pairsOf_fst (tables : List Table) (d : Table) :
    (pairsOf tables d).map Prod.fst = d.columns := by
  rw [pairsOf]
  cases partner? tables d with
  | none => simp [Function.comp_def]
  | some t =>
      simp only [pairColumns_eq, map_mapIdx]
      exact List.ext_getElem (by simp) (by simp)

theorem placed_columns (tables : List Table) (d : Table) :
    (placed tables d).columns = (pairsOf tables d).map joinedColumn := by
  rw [placed, pairsOf]
  cases hpartner : lastNamed? tables d.name with
  | none =>
      rw [show partner? tables d = none from hpartner]
      simp [Function.comp_def, joinedColumn]
  | some t =>
      rw [show partner? tables d = some t from hpartner]
      exact (congrArg Table.columns (join_eq t d)).symm

/-- Where the identifiers of the declared tables go. -/
def tableMoves (p : Project) (declared : List Table) : Renaming :=
  tableIds (lastDeclarations declared) p.tables

/-- Where the identifiers of the declared columns go. -/
def columnMoves (p : Project) (declared : List Table) : Renaming :=
  columnIds (lastDeclarations declared) p.tables

theorem tableMoves_eq (p : Project) (declared : List Table) :
    tableMoves p declared =
      (lastDeclarations declared).filterMap fun d =>
        ((lastNamed? p.tables d.name).map Table.id).map (d.id, ·) := by
  simp only [Option.map_map]
  rfl

theorem columnMoves_eq (p : Project) (declared : List Table) :
    columnMoves p declared =
      ((lastDeclarations declared).flatMap (pairsOf p.tables)).filterMap fun pair =>
        (pair.2.map Column.id).map (pair.1.id, ·) := by
  rw [columnMoves, columnIds, List.filterMap_flatMap]
  refine List.flatMap_congr fun d _ => ?_
  rw [columnIdsOf, pairsOf]
  cases partner? p.tables d with
  | none => simp
  | some t => simp only [Option.map_map, Function.comp_def]

/-! ## Where a declaration goes -/

section Separate

variable {p : Project} {declared : List Table} {d : Table}

/-- Declarations that are named by text, under identifiers that are all different. -/
structure Separate (declared : List Table) : Prop where
  named : Named declared
  tableIds : (declared.map (·.id.canon)).Nodup
  columnIds : ((declared.flatMap Table.columnIds).map Value.canon).Nodup

/-- The declarations that count have different identifiers. -/
theorem Separate.tableKeys (h : Separate declared) :
    ((lastDeclarations declared).map fun d => d.id.canon).Nodup :=
  h.tableIds.sublist ((lastDeclarations_sublist declared).map _)

/-- So have their columns. -/
theorem Separate.columnKeys (h : Separate declared) (tables : List Table) :
    (((lastDeclarations declared).flatMap (pairsOf tables)).map fun pair =>
      pair.1.id.canon).Nodup := by
  have hpairs : ((lastDeclarations declared).flatMap (pairsOf tables)).map
      (fun pair => pair.1.id.canon) =
      ((lastDeclarations declared).flatMap Table.columnIds).map Value.canon := by
    rw [List.map_flatMap, List.map_flatMap]
    refine List.flatMap_congr fun d _ => ?_
    rw [Table.columnIds, ← pairsOf_fst tables d, List.map_map, List.map_map]
    rfl
  rw [hpairs]
  exact h.columnIds.sublist (((lastDeclarations_sublist declared).flatMap _).map _)

/-- The identifier of a declaration that counts becomes that of the table it is placed in. -/
theorem Separate.tableMoves_placed (h : Separate declared)
    (hd : lastNamed? declared d.name = some d) :
    renamed (tableMoves p declared) d.id = (placed p.tables d).id := by
  have hmem := (mem_lastDeclarations_iff h.named).2 ⟨(lastNamed?_eq_some hd).1, hd⟩
  rw [tableMoves_eq, renamed_filterMap h.tableKeys hmem, placed]
  cases lastNamed? p.tables d.name <;> rfl

/-- The identifiers of the columns of a declaration that counts become those of the columns of the
table it is placed in. -/
theorem Separate.columnMoves_placed (h : Separate declared)
    (hd : lastNamed? declared d.name = some d) :
    d.columnIds.map (renamed (columnMoves p declared)) =
      (placed p.tables d).columnIds := by
  have hmem := (mem_lastDeclarations_iff h.named).2 ⟨(lastNamed?_eq_some hd).1, hd⟩
  rw [Table.columnIds, Table.columnIds, placed_columns, ← pairsOf_fst p.tables d, List.map_map,
    List.map_map, List.map_map, columnMoves_eq]
  refine List.map_congr_left fun pair hpair => ?_
  have hown : pair ∈ (lastDeclarations declared).flatMap (pairsOf p.tables) :=
    List.mem_flatMap.2 ⟨d, hmem, hpair⟩
  simp only [Function.comp_apply]
  rw [renamed_filterMap (h.columnKeys p.tables) hown, joinedColumn]
  cases pair.2 <;> rfl

end Separate

/-! ## Merges that can be made -/

/-- Declared tables and relations that can be put beside a project, with identifiers and names that
are text on both sides. -/
structure Mergeable (p : Project) (declared : List Table) (relations : List Relation) : Prop where
  sound : Sound (p.tables ++ declared) (p.relations ++ relations)
  typed : ∀ t ∈ p.tables, t.IsTyped
  declaredTyped : ∀ d ∈ declared, d.IsTyped

section Mergeable

variable {p : Project} {declared : List Table} {relations : List Relation} {d : Table} {id : Value}

theorem Mergeable.tables (h : Mergeable p declared relations) : Named p.tables :=
  .of_isTyped h.typed h.sound.tableIds_append.1

theorem Mergeable.declarations (h : Mergeable p declared relations) : Named declared :=
  .of_isTyped h.declaredTyped h.sound.tableIds_append.2.1

theorem Mergeable.separate (h : Mergeable p declared relations) : Separate declared := by
  have hcolumns := h.sound.columns
  rw [List.flatMap_append, List.map_append] at hcolumns
  exact ⟨h.declarations, h.sound.tableIds_append.2.1, (List.nodup_append.1 hcolumns).2.1⟩

theorem tableMoves_placed (h : Mergeable p declared relations)
    (hd : lastNamed? declared d.name = some d) :
    renamed (tableMoves p declared) d.id = (placed p.tables d).id :=
  h.separate.tableMoves_placed hd

theorem columnMoves_placed (h : Mergeable p declared relations)
    (hd : lastNamed? declared d.name = some d) :
    d.columnIds.map (renamed (columnMoves p declared)) = (placed p.tables d).columnIds :=
  h.separate.columnMoves_placed hd

/-- Identifiers of no such declaration stay. -/
theorem tableMoves_other (hdeclared : ∀ d ∈ declared, d.IsTyped)
    (hid : ∀ d ∈ lastDeclarations declared, d.id ≠ id) :
    renamed (tableMoves p declared) id = id := by
  refine renamed_of_not_key fun change hchange hcanon => ?_
  obtain ⟨d, hd, hvalue⟩ := List.mem_filterMap.1 hchange
  obtain ⟨t, -, rfl⟩ := Option.map_eq_some_iff.1 hvalue
  exact hid d hd (Value.eq_of_canon (hdeclared d (mem_lastDeclarations hd)).id hcanon)

/-- Identifiers of no column of such a declaration stay. -/
theorem columnMoves_other (hdeclared : ∀ d ∈ declared, d.IsTyped)
    (hid : ∀ d ∈ lastDeclarations declared, id ∉ d.columnIds) :
    renamed (columnMoves p declared) id = id := by
  rw [columnMoves_eq]
  refine renamed_of_not_key fun change hchange hcanon => ?_
  obtain ⟨pair, hpair, hvalue⟩ := List.mem_filterMap.1 hchange
  obtain ⟨b, -, rfl⟩ := Option.map_eq_some_iff.1 hvalue
  obtain ⟨d, hd, hpair⟩ := List.mem_flatMap.1 hpair
  have hc : pair.1 ∈ d.columns := by
    rw [← pairsOf_fst p.tables d]
    exact List.mem_map_of_mem hpair
  have htyped := (hdeclared d (mem_lastDeclarations hd)).columns pair.1 hc
  refine hid d hd ?_
  rw [← Value.eq_of_canon htyped.id hcanon]
  exact List.mem_map_of_mem hc

end Mergeable

/-! ## Declared relations -/

/-- Those of some relations that join columns which no relation seen before joins. -/
def newEnds (seen : List Relation) : List Relation → List Relation
  | [] => []
  | r :: rest =>
      if seen.any (·.sameEnds r) then newEnds seen rest else r :: newEnds (seen ++ [r]) rest

theorem mem_newEnds {seen relations : List Relation} {r : Relation}
    (h : r ∈ newEnds seen relations) : r ∈ relations := by
  induction relations generalizing seen with
  | nil => exact h
  | cons s relations ih =>
      rw [newEnds] at h
      split at h
      · exact List.mem_cons_of_mem _ (ih h)
      · rcases List.mem_cons.1 h with rfl | h
        · exact List.mem_cons_self
        · exact List.mem_cons_of_mem _ (ih h)

/-- What each of some relations joins is joined in the end. -/
theorem newEnds_covers {seen relations : List Relation} {r : Relation} (h : r ∈ relations) :
    (seen ++ newEnds seen relations).any (·.sameEnds r) = true := by
  induction relations generalizing seen with
  | nil => exact absurd h List.not_mem_nil
  | cons s relations ih =>
      rw [newEnds]
      rcases List.mem_cons.1 h with rfl | h
      · split
        · next hseen => rw [List.any_append, hseen, Bool.true_or]
        · have hself : r.sameEnds r = true := by
            simp [Relation.sameEnds, Relation.startsAt, Relation.endsAt]
          rw [List.any_append, List.any_cons, hself, Bool.true_or, Bool.or_true]
      · split
        · exact ih h
        · rw [← List.singleton_append, ← List.append_assoc]
          exact ih h

theorem newEnds_eq_nil {seen relations : List Relation}
    (h : ∀ r ∈ relations, seen.any (·.sameEnds r) = true) : newEnds seen relations = [] := by
  induction relations with
  | nil => rfl
  | cons s relations ih =>
      rw [List.forall_mem_cons] at h
      rw [newEnds, if_pos h.1]
      exact ih h.2

/-- Relations of different ends, all of them new, are all added. -/
theorem newEnds_eq_self {seen relations : List Relation}
    (hseen : ∀ r ∈ seen, ∀ s ∈ relations, r.sameEnds s = false)
    (hdistinct : relations.Pairwise fun r s => r.sameEnds s = false) :
    newEnds seen relations = relations := by
  induction relations generalizing seen with
  | nil => rfl
  | cons s relations ih =>
      rw [List.pairwise_cons] at hdistinct
      have hnew : seen.any (·.sameEnds s) = false := by
        rw [List.any_eq_false]
        intro r hr
        rw [hseen r hr s List.mem_cons_self]
        exact Bool.false_ne_true
      rw [newEnds, hnew, if_neg Bool.false_ne_true, ih _ hdistinct.2]
      intro r hr r' hr'
      rcases List.mem_append.1 hr with hr | hr
      · exact hseen r hr r' (List.mem_cons_of_mem _ hr')
      · rw [List.mem_singleton.1 hr]
        exact hdistinct.1 r' hr'

/-- Of the declared relations those are added that resolve and join other columns than the relations
before them. -/
theorem foldl_addRelation_eq (tables : List Table) (seen declared : List Relation) :
    declared.foldl (addRelation tables) seen =
      seen ++ newEnds seen (declared.filter (·.resolvesIn tables)) := by
  induction declared generalizing seen with
  | nil => simp [newEnds]
  | cons r declared ih =>
      rw [List.foldl_cons, addRelation]
      by_cases hresolves : r.resolvesIn tables = true
      · rw [hresolves, Bool.not_true, Bool.or_false, List.filter_cons_of_pos hresolves, newEnds]
        by_cases hseen : seen.any (·.sameEnds r) = true
        · rw [if_pos hseen, if_pos hseen, ih]
        · rw [if_neg hseen, if_neg hseen, ih, List.append_assoc, List.singleton_append]
      · rw [List.filter_cons_of_neg hresolves]
        rw [Bool.not_eq_true] at hresolves
        rw [hresolves, Bool.not_false, Bool.or_true, if_pos rfl, ih]

end SchemaDesk.Edit.Merge
