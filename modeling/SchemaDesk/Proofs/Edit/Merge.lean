import Mathlib.Data.List.Perm.Subperm
import Mathlib.Data.List.Flatten
import SchemaDesk.Edit.Merge
import SchemaDesk.Proofs.Schema.Flagged

/-!
# The parts of a merge

A merge takes every column identifier from one of two places: from a column of the project, at most
once, or from a declared column.  `columnIds_subperm` counts them: with all their repetitions, the
column identifiers of the joined tables are among those of the project and those of the declared
tables put together.  So nothing that was different becomes equal.

Tables keep their identifiers and their order, and the declared tables that are joined with none
follow them.
-/

namespace SchemaDesk

/-! ## Names up to letter case -/

namespace Value

theorem sameName_iff {a b : Value} :
    a.sameName b = true ↔ ∃ s u, a = .str s ∧ b = .str u ∧ Text.fold s = Text.fold u := by
  cases b with
  | str u => cases a <;> simp [sameName, isNamed]
  | _ => simp [sameName]

theorem sameName_comm (a b : Value) : a.sameName b = b.sameName a := by
  rw [Bool.eq_iff_iff, sameName_iff, sameName_iff]
  constructor
  · rintro ⟨s, u, rfl, rfl, h⟩
    exact ⟨u, s, rfl, rfl, h.symm⟩
  · rintro ⟨s, u, rfl, rfl, h⟩
    exact ⟨u, s, rfl, rfl, h.symm⟩

theorem sameName_trans {a b c : Value} (h : a.sameName b = true) (h' : b.sameName c = true) :
    a.sameName c = true := by
  obtain ⟨s, u, rfl, rfl, hsu⟩ := sameName_iff.1 h
  obtain ⟨v, w, hv, rfl, hvw⟩ := sameName_iff.1 h'
  cases hv
  exact sameName_iff.2 ⟨s, w, rfl, rfl, hsu.trans hvw⟩

/-- Names are different from each other when their folded texts are. -/
theorem pairwise_sameName_iff {α : Type} {name : α → Value} {xs : List α}
    (h : ∀ x ∈ xs, ∃ s, name x = .str s) :
    (xs.Pairwise fun x y => (name x).sameName (name y) = false) ↔
      (xs.map fun x => Text.fold (name x).text).Nodup := by
  rw [List.Nodup, List.pairwise_map]
  refine List.Pairwise.iff_of_mem fun {x y} hx hy => ?_
  obtain ⟨s, hs⟩ := h x hx
  obtain ⟨u, hu⟩ := h y hy
  rw [hs, hu]
  exact decide_eq_false_iff_not

end Value

/-! ## Sublists up to order -/

theorem subperm_flatMap {α β : Type} {xs ys : List α} (h : List.Subperm xs ys) (f : α → List β) :
    List.Subperm (xs.flatMap f) (ys.flatMap f) := by
  obtain ⟨zs, hperm, hsub⟩ := h
  exact ⟨zs.flatMap f, hperm.flatMap_right f, hsub.flatMap f⟩

theorem subperm_map {α β : Type} {xs ys : List α} (h : List.Subperm xs ys) (f : α → β) :
    List.Subperm (xs.map f) (ys.map f) := by
  obtain ⟨zs, hperm, hsub⟩ := h
  exact ⟨zs.map f, hperm.map f, hsub.map f⟩

namespace Edit.Merge

/-! ## Joining two tables -/

/-- The existing columns whose names no earlier declared column has. -/
def freeColumns (existing earlier : List Column) : List Column :=
  existing.filter fun e => !earlier.any (·.name.sameName e.name)

theorem freeColumns_cons_sublist (existing earlier : List Column) (c : Column) :
    (freeColumns existing (c :: earlier)).Sublist (freeColumns existing earlier) := by
  refine List.monotone_filter_right _ fun e he => ?_
  simp only [List.any_cons, Bool.not_or, Bool.and_eq_true] at he
  exact he.2

/-- The first declared column of a name takes over from a free column, which is free no more. -/
theorem freeColumns_of_prior {existing earlier : List Column} {c e : Column}
    (hseen : ¬earlier.any (·.name.sameName c.name) = true)
    (hprior : existing.reverse.find? (·.name.sameName c.name) = some e) :
    e ∈ freeColumns existing earlier ∧ e ∉ freeColumns existing (c :: earlier) := by
  have hmem := List.mem_reverse.1 (List.mem_of_find?_eq_some hprior)
  have hname := List.find?_some hprior
  constructor
  · refine List.mem_filter.2 ⟨hmem, ?_⟩
    rw [Bool.not_eq_true', ← Bool.not_eq_true]
    intro hany
    obtain ⟨d, hd, hsame⟩ := List.any_eq_true.1 hany
    exact hseen (List.any_eq_true.2 ⟨d, hd, Value.sameName_trans hsame hname⟩)
  · intro hin
    have hnone := (List.mem_filter.1 hin).2
    rw [List.any_cons, Value.sameName_comm, hname, Bool.true_or] at hnone
    contradiction

/-- Each declared column of a table takes over an identifier of an existing column, which nobody has
taken over before, or keeps its own. -/
theorem pairColumns_subperm (existing earlier declared : List Column) :
    List.Subperm (((pairColumns existing earlier declared).map joinedColumn).map Column.id)
      ((freeColumns existing earlier).map Column.id ++ declared.map Column.id) := by
  induction declared generalizing earlier with
  | nil => exact List.nil_subperm
  | cons c declared ih =>
      have hrest := ih (c :: earlier)
      have hfewer := freeColumns_cons_sublist existing earlier c
      have hown : List.Subperm
          (c.id :: ((pairColumns existing (c :: earlier) declared).map joinedColumn).map Column.id)
          ((freeColumns existing earlier).map Column.id ++ (c :: declared).map Column.id) := by
        rw [List.map_cons]
        refine List.Subperm.trans ((List.subperm_cons _).2 hrest) ?_
        rw [List.perm_middle.subperm_left]
        exact (List.subperm_cons _).2 ((List.subperm_append_right _).2 (hfewer.map _).subperm)
      rw [pairColumns, List.map_cons, List.map_cons]
      by_cases hseen : earlier.any (·.name.sameName c.name) = true
      · rw [if_pos hseen]
        exact hown
      · rw [if_neg hseen]
        cases hprior : existing.reverse.find? (·.name.sameName c.name) with
        | none => exact hown
        | some e =>
            obtain ⟨hfree, htaken⟩ := freeColumns_of_prior hseen hprior
            have hgiven := List.cons_subperm_of_not_mem_of_mem htaken hfree hfewer.subperm
            refine List.Subperm.trans ((List.subperm_cons _).2 hrest) ?_
            rw [← List.cons_append]
            exact (subperm_map hgiven Column.id).append (List.sublist_cons_self _ _).subperm

theorem join_columnIds_subperm (existing declared : Table) :
    List.Subperm (join existing declared).columnIds
      (existing.columnIds ++ declared.columnIds) := by
  have hpairs := pairColumns_subperm existing.columns [] declared.columns
  simp only [freeColumns, List.any_nil, Bool.not_false, List.filter_true] at hpairs
  exact hpairs

/-! ## Joining all tables -/

/-- The declared tables that have a table of their name. -/
def usedTables (declared tables : List Table) : List Table :=
  declared.filter fun d => tables.any (·.name.sameName d.name)

theorem mem_lastDeclarations {declared : List Table} {d : Table}
    (h : d ∈ lastDeclarations declared) : d ∈ declared := by
  induction declared with
  | nil => exact absurd h List.not_mem_nil
  | cons t declared ih =>
      rw [lastDeclarations] at h
      split at h
      · exact List.mem_cons_of_mem _ (ih h)
      · rcases List.mem_cons.1 h with rfl | h
        · exact List.mem_cons_self
        · exact List.mem_cons_of_mem _ (ih h)

theorem lastDeclarations_sublist (declared : List Table) :
    (lastDeclarations declared).Sublist declared := by
  induction declared with
  | nil => exact List.Sublist.refl _
  | cons t declared ih =>
      rw [lastDeclarations]
      split
      · exact ih.cons _
      · exact ih.cons_cons _

theorem joinAll_ids (declared tables : List Table) :
    (joinAll declared tables).map Table.id = tables.map Table.id := by
  induction tables with
  | nil => rfl
  | cons t tables ih =>
      rw [joinAll, List.map_cons, List.map_cons, ih]
      congr 1
      split
      · rfl
      · cases declared.find? (·.name.sameName t.name) <;> rfl

theorem usedTables_cons_sublist (declared tables : List Table) (t : Table) :
    (usedTables declared tables).Sublist (usedTables declared (t :: tables)) := by
  refine List.monotone_filter_right _ fun d hd => ?_
  rw [List.any_cons, hd, Bool.or_true]

/-- The declared table that the last table of a name is joined with is used there and nowhere
else. -/
theorem usedTables_of_joined {declared tables : List Table} {t d : Table}
    (hagain : ¬tables.any (·.name.sameName t.name) = true)
    (hfind : declared.find? (·.name.sameName t.name) = some d) :
    d ∈ usedTables declared (t :: tables) ∧ d ∉ usedTables declared tables := by
  have hmem := List.mem_of_find?_eq_some hfind
  have hname := List.find?_some hfind
  constructor
  · refine List.mem_filter.2 ⟨hmem, ?_⟩
    rw [List.any_cons, Value.sameName_comm, hname, Bool.true_or]
  · intro hin
    obtain ⟨u, hu, hsame⟩ := List.any_eq_true.1 (List.mem_filter.1 hin).2
    exact hagain (List.any_eq_true.2 ⟨u, hu, Value.sameName_trans hsame hname⟩)

/-- The joined tables have their columns from the tables of the project and from the declared tables
of their names. -/
theorem joinAll_columnIds_subperm (declared tables : List Table) :
    List.Subperm ((joinAll declared tables).flatMap Table.columnIds)
      (tables.flatMap Table.columnIds ++
        (usedTables declared tables).flatMap Table.columnIds) := by
  induction tables with
  | nil => exact List.nil_subperm
  | cons t tables ih =>
      have hmore := usedTables_cons_sublist declared tables t
      have halone : List.Subperm
          (t.columnIds ++ (joinAll declared tables).flatMap Table.columnIds)
          ((t :: tables).flatMap Table.columnIds ++
            (usedTables declared (t :: tables)).flatMap Table.columnIds) := by
        rw [List.flatMap_cons, List.append_assoc]
        refine (List.subperm_append_left _).2 (ih.trans ?_)
        exact (List.subperm_append_left _).2 (hmore.flatMap _).subperm
      rw [joinAll, List.flatMap_cons]
      by_cases hagain : tables.any (·.name.sameName t.name) = true
      · rw [if_pos hagain]
        exact halone
      · rw [if_neg hagain]
        cases hfind : declared.find? (·.name.sameName t.name) with
        | none => exact halone
        | some d =>
            obtain ⟨hused, hnew⟩ := usedTables_of_joined hagain hfind
            have htaken := List.cons_subperm_of_not_mem_of_mem hnew hused hmore.subperm
            refine ((join_columnIds_subperm t d).append ih).trans ?_
            rw [(perm_append_swap _ _ _ _).subperm_right]
            exact (List.subperm_append_left _).2 (subperm_flatMap htaken _)

/-- All column identifiers of the joined and the new tables. -/
theorem columnIds_subperm (declared tables : List Table) :
    List.Subperm ((joinAll declared tables ++ newTables declared tables).flatMap Table.columnIds)
      (tables.flatMap Table.columnIds ++ declared.flatMap Table.columnIds) := by
  have hsplit : (usedTables declared tables ++ newTables declared tables).Perm declared :=
    List.filter_append_perm _ _
  rw [List.flatMap_append]
  refine ((joinAll_columnIds_subperm declared tables).append (List.Subperm.refl _)).trans ?_
  rw [List.append_assoc, ← List.flatMap_append]
  exact (List.subperm_append_left _).2 (subperm_flatMap hsplit.subperm _)

end Edit.Merge

end SchemaDesk
