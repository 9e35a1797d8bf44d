import SchemaDesk.Proofs.Sameness
import SchemaDesk.Schema.Integrity
import SchemaDesk.Schema.Lookup

/-!
# Sound tables and relations

`Sound` says in words of membership what `Project.checkIntegrity` checks one identifier after the
other, and `checkIntegrity_eq_ok_iff` says that they agree.

Soundness only depends on the identifiers of the tables and of their columns, which `Table.shape`
collects.  So an edit that keeps the shapes of all tables keeps soundness (`Sound.congr_shape`), and
one that takes something away has to show only that the ends of the relations that are left are
still there (`Sound.mono`).
-/

namespace SchemaDesk

/-! ## Checks that succeed -/

theorem Except.bind_eq_ok {ε α β : Type} {x : Except ε α} {f : α → Except ε β} {b : β} :
    (x >>= f) = .ok b ↔ ∃ a, x = .ok a ∧ f a = .ok b := by
  cases x with
  | error e =>
      show (Except.error e : Except ε β) = .ok b ↔ _
      simp
  | ok a =>
      show f a = .ok b ↔ _
      simp

theorem Except.bind_eq_error {ε α β : Type} {x : Except ε α} {f : α → Except ε β} {e : ε} :
    (x >>= f) = .error e ↔ x = .error e ∨ ∃ a, x = .ok a ∧ f a = .error e := by
  cases x with
  | error e' =>
      show (Except.error e' : Except ε β) = .error e ↔ _
      simp
  | ok a =>
      show f a = .error e ↔ _
      simp

/-- An outcome is a failure if it is no success. -/
theorem Except.exists_eq_error_iff {ε α : Type} {x : Except ε α} :
    (∃ e, x = .error e) ↔ ∀ a, x ≠ .ok a := by
  cases x <;> simp

theorem requireKeys_eq_ok {vs : List Value} :
    requireKeys vs = .ok () ↔ ∀ v ∈ vs, v.isKey = true := by
  rw [requireKeys, ← List.all_eq_true]
  split <;> simp_all

theorem require_eq_ok {condition : Bool} {p : Problem} :
    require condition p = .ok () ↔ condition = true := by
  rw [require]
  split <;> simp_all

/-- A check of every item succeeds when the check of each item does. -/
theorem forM_eq_ok {ε α : Type} {f : α → Except ε Unit} {xs : List α} :
    xs.forM f = .ok () ↔ ∀ x ∈ xs, f x = .ok () := by
  induction xs with
  | nil => exact ⟨fun _ _ hx => absurd hx List.not_mem_nil, fun _ => rfl⟩
  | cons x xs ih =>
      show (f x >>= fun _ => xs.forM f) = .ok () ↔ _
      rw [Except.bind_eq_ok, List.forall_mem_cons]
      constructor
      · rintro ⟨⟨⟩, hx, hxs⟩
        exact ⟨hx, ih.1 hxs⟩
      · rintro ⟨hx, hxs⟩
        exact ⟨(), hx, ih.2 hxs⟩

/-- A check of every item fails as the check of one of them does. -/
theorem exists_of_forM_error {ε α : Type} {f : α → Except ε Unit} {xs : List α} {e : ε}
    (h : xs.forM f = .error e) : ∃ x ∈ xs, f x = .error e := by
  induction xs with
  | nil => cases h
  | cons x xs ih =>
      rcases Except.bind_eq_error.1 h with hx | ⟨_, -, hxs⟩
      · exact ⟨x, List.mem_cons_self, hx⟩
      · obtain ⟨y, hy, hfail⟩ := ih hxs
        exact ⟨y, List.mem_cons_of_mem _ hy, hfail⟩

/-- Working through a list succeeds when every item gives something. -/
theorem mapM_eq_ok {ε α β : Type} {f : α → Except ε β} {g : α → β} {xs : List α}
    (h : ∀ x ∈ xs, f x = .ok (g x)) : xs.mapM f = .ok (xs.map g) := by
  induction xs with
  | nil => rfl
  | cons x xs ih =>
      rw [List.mapM_cons, h x List.mem_cons_self, ih fun y hy => h y (List.mem_cons_of_mem _ hy)]
      rfl

/-- Working through a list succeeds exactly when every item gives something. -/
theorem exists_mapM_eq_ok_iff {ε α β : Type} {f : α → Except ε β} {xs : List α} :
    (∃ ys, xs.mapM f = .ok ys) ↔ ∀ x ∈ xs, ∃ y, f x = .ok y := by
  induction xs with
  | nil => exact ⟨fun _ _ hx => absurd hx List.not_mem_nil, fun _ => ⟨[], rfl⟩⟩
  | cons x xs ih =>
      rw [List.forall_mem_cons, ← ih]
      simp only [List.mapM_cons, Except.bind_eq_ok]
      constructor
      · rintro ⟨ys, y, hy, rest, hrest, -⟩
        exact ⟨⟨y, hy⟩, rest, hrest⟩
      · rintro ⟨⟨y, hy⟩, rest, hrest⟩
        exact ⟨y :: rest, y, hy, rest, hrest, rfl⟩

/-- Four lists put together in another order. -/
theorem perm_append_swap {α : Type} (as bs cs ds : List α) :
    (as ++ bs ++ (cs ++ ds)).Perm (as ++ cs ++ (bs ++ ds)) := by
  rw [List.append_assoc, List.append_assoc]
  exact (List.perm_append_comm_assoc bs cs ds).append_left as

/-- What is found where only one thing can be. -/
theorem find?_eq_of_unique {α : Type} {p : α → Bool} {xs : List α} {x : α} (hx : x ∈ xs)
    (hp : p x = true) (hunique : ∀ y ∈ xs, p y = true → y = x) : xs.find? p = some x := by
  cases hfind : xs.find? p with
  | none => exact absurd hp (List.find?_eq_none.1 hfind x hx)
  | some y => rw [hunique y (List.mem_of_find?_eq_some hfind) (List.find?_some hfind)]

/-- What is found by something that a change keeps is found in its changed form. -/
theorem find?_map_of_keeps {α : Type} {f : α → α} {p : α → Bool} (h : ∀ x, p (f x) = p x)
    (xs : List α) : (xs.map f).find? p = (xs.find? p).map f := by
  rw [List.find?_map]
  congr 2
  exact funext h

/-! ## Soundness -/

/-- The identifiers of a table and of its columns. -/
def Table.shape (t : Table) : Value × List Value :=
  (t.id, t.columnIds)

/-- Whether tables have a column with these identifiers. -/
def HasColumn (tables : List Table) (tableId columnId : Value) : Prop :=
  ∃ t ∈ tables, t.id.canon = tableId.canon ∧ columnId.canon ∈ t.columnIds.map Value.canon

/-- Tables and relations between them whose identifiers are usable and all different, where both
ends of every relation are columns that exist. -/
structure Sound (tables : List Table) (relations : List Relation) : Prop where
  keys : ∀ id ∈ tables.map Table.id ++ tables.flatMap Table.columnIds ++ relations.map Relation.id,
    id.isKey = true
  entities : ((tables.map Table.id ++ relations.map Relation.id).map Value.canon).Nodup
  columns : ((tables.flatMap Table.columnIds).map Value.canon).Nodup
  ends : ∀ r ∈ relations, ∀ side, HasColumn tables (r.tableId side) (r.columnId side)

section Lookup

variable {tables : List Table} {relations : List Relation}

theorem hasColumn_append {tables' : List Table} {t c : Value} :
    HasColumn (tables ++ tables') t c ↔ HasColumn tables t c ∨ HasColumn tables' t c := by
  simp only [HasColumn, List.mem_append]
  constructor
  · rintro ⟨table, hmem | hmem, h⟩
    · exact .inl ⟨table, hmem, h⟩
    · exact .inr ⟨table, hmem, h⟩
  · rintro (⟨table, hmem, h⟩ | ⟨table, hmem, h⟩)
    · exact ⟨table, .inl hmem, h⟩
    · exact ⟨table, .inr hmem, h⟩

/-- A column that exists depends on the shapes of the tables only. -/
theorem hasColumn_iff_shape {t c : Value} :
    HasColumn tables t c ↔
      ∃ s ∈ tables.map Table.shape, s.1.canon = t.canon ∧ c.canon ∈ s.2.map Value.canon := by
  simp only [HasColumn, List.mem_map, Table.shape]
  constructor
  · rintro ⟨table, hmem, h⟩
    exact ⟨_, ⟨table, hmem, rfl⟩, h⟩
  · rintro ⟨_, ⟨table, hmem, rfl⟩, h⟩
    exact ⟨table, hmem, h⟩

/-- Tables of different identifiers: a table is known by its identifier. -/
theorem table_unique (h : (tables.map (·.id.canon)).Nodup) {t u : Table} (ht : t ∈ tables)
    (hu : u ∈ tables) (hid : t.id.canon = u.id.canon) : t = u :=
  List.inj_on_of_nodup_map h ht hu hid

/-- In tables of different identifiers a table is the last one, and the only one, of its own. -/
theorem lastTable?_eq_some (h : (tables.map (·.id.canon)).Nodup) {t : Table} {id : Value}
    (ht : t ∈ tables) (hid : t.id.canon = id.canon) : lastTable? tables id = some t := by
  refine find?_eq_of_unique (List.mem_reverse.2 ht) (Value.same_iff.2 hid) fun u hu hsame => ?_
  exact table_unique h (List.mem_reverse.1 hu) ht ((Value.same_iff.1 hsame).trans hid.symm)

namespace Sound

theorem tableIds_nodup (h : Sound tables relations) : (tables.map (·.id.canon)).Nodup := by
  have hentities := h.entities
  rw [List.map_append, List.map_map] at hentities
  exact (List.nodup_append.1 hentities).1

/-- Tables that are sound beside others: identifiers differ on both sides, and between them. -/
theorem tableIds_append {tables' : List Table} (h : Sound (tables ++ tables') relations) :
    (tables.map (·.id.canon)).Nodup ∧ (tables'.map (·.id.canon)).Nodup ∧
      ∀ t ∈ tables, ∀ u ∈ tables', t.id.canon ≠ u.id.canon := by
  have hids := h.tableIds_nodup
  rw [List.map_append, List.nodup_append] at hids
  exact ⟨hids.1, hids.2.1,
    fun t ht u hu => hids.2.2 _ (List.mem_map_of_mem ht) _ (List.mem_map_of_mem hu)⟩

/-- Each column belongs to one table, where it stands once. -/
theorem columnIds_nodup (h : Sound tables relations) {t : Table} (ht : t ∈ tables) :
    (t.columns.map (·.id.canon)).Nodup := by
  have hcolumns := h.columns
  rw [List.map_flatMap, List.nodup_flatMap] at hcolumns
  have htable := hcolumns.1 t ht
  rwa [Table.columnIds, List.map_map] at htable

theorem column_unique (h : Sound tables relations) {t : Table} (ht : t ∈ tables) {c d : Column}
    (hc : c ∈ t.columns) (hd : d ∈ t.columns) (hid : c.id.canon = d.id.canon) : c = d :=
  List.inj_on_of_nodup_map (h.columnIds_nodup ht) hc hd hid

theorem tableId_isKey (h : Sound tables relations) {t : Table} (ht : t ∈ tables) :
    t.id.isKey = true :=
  h.keys _ (List.mem_append_left _ (List.mem_append_left _ (List.mem_map_of_mem ht)))

theorem columnId_isKey (h : Sound tables relations) {t : Table} (ht : t ∈ tables) {id : Value}
    (hid : id ∈ t.columnIds) : id.isKey = true :=
  h.keys _ (List.mem_append_left _ (List.mem_append_right _ (List.mem_flatMap.2 ⟨t, ht, hid⟩)))

/-- The empty canvas is sound. -/
theorem nil : Sound [] [] := by
  constructor <;> simp

/-- Only the shapes of the tables count. -/
theorem congr_shape {tables' : List Table}
    (hshape : tables'.map Table.shape = tables.map Table.shape) (h : Sound tables relations) :
    Sound tables' relations := by
  have hids : tables'.map Table.id = tables.map Table.id := by
    have := congrArg (List.map Prod.fst) hshape
    simpa [Table.shape, Function.comp_def] using this
  have hcolumns : tables'.flatMap Table.columnIds = tables.flatMap Table.columnIds := by
    have := congrArg (List.flatMap Prod.snd) hshape
    simpa [Table.shape, List.flatMap_map] using this
  refine ⟨?_, ?_, ?_, ?_⟩
  · rw [hids, hcolumns]
    exact h.keys
  · rw [hids]
    exact h.entities
  · rw [hcolumns]
    exact h.columns
  · intro r hr side
    rw [hasColumn_iff_shape, hshape, ← hasColumn_iff_shape]
    exact h.ends r hr side

/-- Tables, columns and relations may be taken away as long as no relation loses an end. -/
theorem mono {tables' : List Table} {relations' : List Relation} (h : Sound tables relations)
    (hids : (tables'.map Table.id).Sublist (tables.map Table.id))
    (hcolumns : (tables'.flatMap Table.columnIds).Sublist (tables.flatMap Table.columnIds))
    (hrelations : relations'.Sublist relations)
    (hends : ∀ r ∈ relations', ∀ side, HasColumn tables' (r.tableId side) (r.columnId side)) :
    Sound tables' relations' := by
  refine ⟨?_, ?_, ?_, hends⟩
  · intro id hid
    exact h.keys id ((hids.append hcolumns).append (hrelations.map _) |>.subset hid)
  · exact h.entities.sublist ((hids.append (hrelations.map _)).map _)
  · exact h.columns.sublist (hcolumns.map _)

/-- Sound tables and relations that share no identifiers can be put side by side. -/
theorem append {tables' : List Table} {relations' : List Relation} (h : Sound tables relations)
    (h' : Sound tables' relations')
    (hentities : ∀ a ∈ tables.map Table.id ++ relations.map Relation.id,
      ∀ b ∈ tables'.map Table.id ++ relations'.map Relation.id, a.canon ≠ b.canon)
    (hcolumns : ∀ a ∈ tables.flatMap Table.columnIds, ∀ b ∈ tables'.flatMap Table.columnIds,
      a.canon ≠ b.canon) :
    Sound (tables ++ tables') (relations ++ relations') := by
  refine ⟨?_, ?_, ?_, ?_⟩
  · intro id hid
    simp only [List.map_append, List.flatMap_append, List.mem_append] at hid
    rcases hid with ((hid | hid) | hid | hid) | hid | hid
    · exact h.keys id (by simp only [List.mem_append]; exact .inl (.inl hid))
    · exact h'.keys id (by simp only [List.mem_append]; exact .inl (.inl hid))
    · exact h.keys id (by simp only [List.mem_append]; exact .inl (.inr hid))
    · exact h'.keys id (by simp only [List.mem_append]; exact .inl (.inr hid))
    · exact h.keys id (List.mem_append_right _ hid)
    · exact h'.keys id (List.mem_append_right _ hid)
  -- Tables and relations share one namespace, so the four lists are regrouped by side first.
  · have hentitiesPerm :
        ((tables ++ tables').map Table.id ++ (relations ++ relations').map Relation.id).Perm
          (tables.map Table.id ++ relations.map Relation.id ++
            (tables'.map Table.id ++ relations'.map Relation.id)) := by
      simpa only [List.map_append] using perm_append_swap _ _ _ _
    rw [(hentitiesPerm.map Value.canon).nodup_iff, List.map_append, List.nodup_append]
    refine ⟨h.entities, h'.entities, fun x hx y hy => ?_⟩
    obtain ⟨a, ha, rfl⟩ := List.mem_map.1 hx
    obtain ⟨b, hb, rfl⟩ := List.mem_map.1 hy
    exact hentities a ha b hb
  · rw [List.flatMap_append, List.map_append, List.nodup_append]
    refine ⟨h.columns, h'.columns, fun x hx y hy => ?_⟩
    obtain ⟨a, ha, rfl⟩ := List.mem_map.1 hx
    obtain ⟨b, hb, rfl⟩ := List.mem_map.1 hy
    exact hcolumns a ha b hb
  · intro r hr side
    rcases List.mem_append.1 hr with hr | hr
    · exact hasColumn_append.2 (.inl (h.ends r hr side))
    · exact hasColumn_append.2 (.inr (h'.ends r hr side))

/-- A relation between columns that exist may be added under an identifier that is not used. -/
theorem add_relation {r : Relation} {id : Text} (h : Sound tables relations) (hid : r.id = .str id)
    (hfresh : Value.str id ∉ tables.map Table.id ++ relations.map Relation.id)
    (hends : ∀ side, HasColumn tables (r.tableId side) (r.columnId side)) :
    Sound tables (relations ++ [r]) := by
  refine ⟨?_, ?_, h.columns, ?_⟩
  · intro v hv
    rw [List.map_append, ← List.append_assoc, List.mem_append] at hv
    rcases hv with hv | hv
    · exact h.keys v hv
    · rw [List.map_cons, List.map_nil, List.mem_singleton] at hv
      rw [hv, hid]
      rfl
  · have hlast : tables.map Table.id ++ (relations ++ [r]).map Relation.id =
        tables.map Table.id ++ relations.map Relation.id ++ [r.id] := by
      simp
    rw [hlast, List.map_append, List.nodup_append]
    refine ⟨h.entities, by simp, fun x hx y hy => ?_⟩
    rw [List.map_cons, List.map_nil, List.mem_singleton, hid, Value.canon_str] at hy
    rintro rfl
    obtain ⟨w, hw, heq⟩ := List.mem_map.1 hx
    rw [hy, Value.canon_eq_str_iff] at heq
    rw [heq] at hw
    exact hfresh hw
  · intro s hs side
    rcases List.mem_append.1 hs with hs | hs
    · exact h.ends s hs side
    · rw [List.mem_singleton.1 hs]
      exact hends side

end Sound

end Lookup

/-! ## What the check of a project decides -/

theorem checkEnd_eq_ok_iff {p : Project} {r : Relation} {side : Side}
    (hids : (p.tables.map (·.id.canon)).Nodup) (htables : ∀ t ∈ p.tables, t.id.isKey = true)
    (hcolumns : ∀ t ∈ p.tables, ∀ id ∈ t.columnIds, id.isKey = true) :
    p.checkEnd r side = .ok () ↔ HasColumn p.tables (r.tableId side) (r.columnId side) := by
  constructor
  · intro h
    obtain ⟨⟨⟩, -, h⟩ := Except.bind_eq_ok.1 h
    cases hfind : p.tables.find? (·.id.same (r.tableId side)) with
    | none => simp [hfind] at h
    | some table =>
        simp only [hfind] at h
        obtain ⟨⟨⟩, -, h⟩ := Except.bind_eq_ok.1 h
        have hsame := List.find?_some hfind
        exact ⟨table, List.mem_of_find?_eq_some hfind, Value.same_iff.1 hsame,
          Value.isAmong_iff.1 (require_eq_ok.1 h)⟩
  · rintro ⟨table, hmem, hid, hcol⟩
    have hkey : (r.tableId side).isKey = true := by
      rw [← Value.isKey_of_canon hid]
      exact htables table hmem
    have hcolKey : (r.columnId side).isKey = true := by
      obtain ⟨id, hidMem, hidCanon⟩ := List.mem_map.1 hcol
      rw [← Value.isKey_of_canon hidCanon]
      exact hcolumns table hmem id hidMem
    -- No other table has the identifier, so the table is what the check finds.
    have hfind : p.tables.find? (·.id.same (r.tableId side)) = some table :=
      find?_eq_of_unique hmem (Value.same_iff.2 hid) fun other hother hsame =>
        table_unique hids hother hmem ((Value.same_iff.1 hsame).trans hid.symm)
    rw [Project.checkEnd]
    refine Except.bind_eq_ok.2 ⟨(), requireKeys_eq_ok.2 (by simpa using hkey), ?_⟩
    simp only [hfind]
    exact Except.bind_eq_ok.2 ⟨(), requireKeys_eq_ok.2 (by simpa using hcolKey),
      require_eq_ok.2 (Value.isAmong_iff.2 hcol)⟩

/-- Every relation passes its check exactly if all of them have both ends. -/
theorem checkRelations_eq_ok_iff {p : Project} (hids : (p.tables.map (·.id.canon)).Nodup)
    (htables : ∀ t ∈ p.tables, t.id.isKey = true)
    (hcolumns : ∀ t ∈ p.tables, ∀ id ∈ t.columnIds, id.isKey = true) :
    p.relations.forM p.checkRelation = .ok () ↔
      ∀ r ∈ p.relations, ∀ side, HasColumn p.tables (r.tableId side) (r.columnId side) := by
  rw [forM_eq_ok]
  refine forall₂_congr fun r _ => ?_
  rw [Project.checkRelation, Except.bind_eq_ok]
  constructor
  · rintro ⟨⟨⟩, hsource, htarget⟩ side
    cases side with
    | source => exact (checkEnd_eq_ok_iff hids htables hcolumns).1 hsource
    | target => exact (checkEnd_eq_ok_iff hids htables hcolumns).1 htarget
  · intro h
    exact ⟨(), (checkEnd_eq_ok_iff hids htables hcolumns).2 (h .source),
      (checkEnd_eq_ok_iff hids htables hcolumns).2 (h .target)⟩

/-- The check of a project accepts exactly the sound ones. -/
theorem checkIntegrity_eq_ok_iff {p : Project} :
    p.checkIntegrity = .ok () ↔ Sound p.tables p.relations := by
  constructor
  · intro h
    obtain ⟨⟨⟩, hkeys, h⟩ := Except.bind_eq_ok.1 h
    obtain ⟨⟨⟩, hentities, h⟩ := Except.bind_eq_ok.1 h
    obtain ⟨⟨⟩, hcolumns, h⟩ := Except.bind_eq_ok.1 h
    have hkeys := requireKeys_eq_ok.1 hkeys
    have hentities := Value.allDistinct_iff.1 (require_eq_ok.1 hentities)
    have hcolumns := Value.allDistinct_iff.1 (require_eq_ok.1 hcolumns)
    have hids : (p.tables.map (·.id.canon)).Nodup := by
      rw [Project.entityIds, List.map_append, List.map_map] at hentities
      exact (List.nodup_append.1 hentities).1
    refine ⟨hkeys, hentities, hcolumns, (checkRelations_eq_ok_iff hids ?_ ?_).1 h⟩
    · exact fun t ht => hkeys _ (List.mem_append_left _ (List.mem_append_left _
        (List.mem_map_of_mem ht)))
    · exact fun t ht id hid => hkeys _ (List.mem_append_left _ (List.mem_append_right _
        (List.mem_flatMap.2 ⟨t, ht, hid⟩)))
  · intro h
    rw [Project.checkIntegrity]
    refine Except.bind_eq_ok.2 ⟨(), requireKeys_eq_ok.2 h.keys, ?_⟩
    refine Except.bind_eq_ok.2 ⟨(), require_eq_ok.2 (Value.allDistinct_iff.2 h.entities), ?_⟩
    refine Except.bind_eq_ok.2 ⟨(), require_eq_ok.2 (Value.allDistinct_iff.2 h.columns), ?_⟩
    exact (checkRelations_eq_ok_iff h.tableIds_nodup (fun _ => h.tableId_isKey)
      fun _ ht _ => h.columnId_isKey ht).2 h.ends

end SchemaDesk
