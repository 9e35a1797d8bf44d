import SchemaDesk.Edit.Command
import SchemaDesk.Proofs.Json.Keys
import SchemaDesk.Proofs.Minting
import SchemaDesk.Proofs.Schema.Sound

/-!
# What the checks of an edit let through

Each check of an edit is stated here as a condition on what it was given, and a patch that passed is
shown to leave alone every field that it was not allowed to name (`Field.patched_keeps`).
-/

namespace SchemaDesk

/-! ## Patches -/

/-- A patch keeps what only fields that it spares have a part in. -/
theorem Field.patched_keeps {ρ β : Type} {fields : List (Field ρ)} (view : ρ → β)
    (spared : Text → Prop)
    (hfields : ∀ f ∈ fields, ¬ spared f.name → ∀ v r, view (f.set v r) = view r) {patch : Patch}
    (hpatch : ∀ entry ∈ patch, ¬ spared entry.1) (r : ρ) :
    view (patched fields patch r) = view r := by
  rw [patched]
  induction patch generalizing r with
  | nil => rfl
  | cons entry patch ih =>
      rw [List.foldl_cons, ih fun e he => hpatch e (List.mem_cons_of_mem _ he), put]
      cases hfind : fields.find? (·.name = entry.1) with
      | none => rfl
      | some f =>
          have hname := List.find?_some hfind
          have hname := of_decide_eq_true hname
          refine hfields f (List.mem_of_find?_eq_some hfind) ?_ entry.2 r
          rw [hname]
          exact hpatch entry List.mem_cons_self

section Kept

variable {patch : Patch}

theorem Table.patched_id (h : ∀ entry ∈ patch, entry.1 ≠ "id") (t : Table) :
    (Field.patched fields patch t).id = t.id := by
  refine Field.patched_keeps Table.id (· = "id") ?_ h t
  simp [fields]

/-- No patch reaches the columns of a table. -/
@[simp] theorem Table.patched_columns (t : Table) :
    (Field.patched fields patch t).columns = t.columns := by
  refine Field.patched_keeps Table.columns (fun _ => False) ?_ (by simp) t
  simp [fields]

theorem Column.patched_id (h : ∀ entry ∈ patch, entry.1 ≠ "id") (c : Column) :
    (Field.patched fields patch c).id = c.id := by
  refine Field.patched_keeps Column.id (· = "id") ?_ h c
  simp [fields]

theorem Column.patched_isForeignKey (h : ∀ entry ∈ patch, entry.1 ≠ "is_foreign_key") (c : Column) :
    (Field.patched fields patch c).isForeignKey = c.isForeignKey := by
  refine Field.patched_keeps Column.isForeignKey (· = "is_foreign_key") ?_ h c
  simp [fields]

theorem Relation.patched_id (h : ∀ entry ∈ patch, entry.1 ≠ "id") (r : Relation) :
    (Field.patched fields patch r).id = r.id := by
  refine Field.patched_keeps Relation.id (· = "id") ?_ h r
  simp [fields]

theorem Relation.patched_endIds (h : ∀ entry ∈ patch, entry.1 ∉ endFields) (r : Relation) :
    (Field.patched fields patch r).endIds = r.endIds := by
  refine Field.patched_keeps Relation.endIds (· ∈ endFields) ?_ h r
  simp [fields, endFields, endIds]

end Kept

namespace Edit

variable {patch : Patch} {place : Place}

theorem checkFields_eq_ok {allowed : List Text} :
    checkFields patch allowed place = .ok () ↔ ∀ entry ∈ patch, entry.1 ∈ allowed := by
  rw [checkFields, require_eq_ok, List.isEmpty_iff, List.filter_eq_nil_iff, List.forall_mem_map]
  simp

theorem refuseArguments_eq_ok {arguments : List Text} :
    refuseArguments arguments patch = .ok () ↔ ∀ entry ∈ patch, entry.1 ∉ arguments := by
  rw [refuseArguments]
  by_cases h : (patch.any fun entry => arguments.contains entry.1) = true
  · rw [if_pos h]
    simpa using h
  · rw [if_neg h]
    simpa using h

theorem mem_fieldsWithout {ρ : Type} {fields : List (Field ρ)} {excluded : List Text} {key : Text} :
    key ∈ fieldsWithout fields excluded ↔ key ∈ Field.names fields ∧ key ∉ excluded := by
  simp [fieldsWithout]

/-- Trimming the name in a patch changes none of its keys. -/
theorem withName_keys {patch' : Patch} (h : withName patch place = .ok patch') :
    patch'.map Prod.fst = patch.map Prod.fst := by
  rw [withName] at h
  induction patch generalizing patch' with
  | nil =>
      cases h
      rfl
  | cons entry patch ih =>
      rw [List.mapM_cons] at h
      obtain ⟨first, hfirst, h⟩ := Except.bind_eq_ok.1 h
      obtain ⟨rest, hrest, h⟩ := Except.bind_eq_ok.1 h
      cases h
      rw [List.map_cons, List.map_cons, ih hrest]
      congr 1
      obtain ⟨key, v⟩ := entry
      simp only at hfirst
      split at hfirst
      · cases hname : name v place with
        | error e => simp [hname, Except.map] at hfirst
        | ok clean =>
            simp [hname, Except.map] at hfirst
            rw [← hfirst]
      · cases hfirst
        rfl

/-- What a patch does not name, it does not name when the name in it is trimmed. -/
theorem withName_spares (spared : Text → Prop) {patch' : Patch}
    (h : withName patch place = .ok patch') (hpatch : ∀ entry ∈ patch, ¬ spared entry.1) :
    ∀ entry ∈ patch', ¬ spared entry.1 := by
  intro entry hentry
  have hgiven : entry.1 ∈ patch.map Prod.fst := by
    rw [← withName_keys h]
    exact List.mem_map_of_mem hentry
  obtain ⟨given, hmem, hfst⟩ := List.mem_map.1 hgiven
  rw [← hfst]
  exact hpatch given hmem

theorem checkColumnPatch_eq_ok {patch' : Patch} (h : checkColumnPatch patch place = .ok patch') :
    (∀ entry ∈ patch, entry.1 ∈ fieldsWithout Column.fields ["id"]) ∧
      withName patch place = .ok patch' := by
  obtain ⟨⟨⟩, hfields, h⟩ := Except.bind_eq_ok.1 h
  obtain ⟨named, hname, h⟩ := Except.bind_eq_ok.1 h
  refine ⟨checkFields_eq_ok.1 hfields, ?_⟩
  rw [hname]
  cases htype : Value.get? "type" named with
  | none =>
      simp only [htype] at h
      cases h
      rfl
  | some type =>
      simp only [htype] at h
      obtain ⟨⟨⟩, -, h⟩ := Except.bind_eq_ok.1 h
      cases h
      rfl

/-- The type in a patch of a column that passed its check is one of the known types, if the patch
names no field twice. -/
theorem checkColumnPatch_type {patch' : Patch} (h : checkColumnPatch patch place = .ok patch')
    (honce : (patch.map Prod.fst).Nodup) :
    ∀ e ∈ patch', e.1 = "type" → Choice.columnType.admits e.2 = true := by
  intro e he hkey
  have hname := (checkColumnPatch_eq_ok h).2
  rw [← withName_keys hname] at honce
  obtain ⟨⟨⟩, -, h⟩ := Except.bind_eq_ok.1 h
  obtain ⟨named, hnamed, h⟩ := Except.bind_eq_ok.1 h
  cases hname.symm.trans hnamed
  cases hget : Value.get? "type" patch' with
  | none => exact absurd (hkey ▸ List.mem_map_of_mem he) (Value.get?_eq_none_iff.1 hget)
  | some type =>
      simp only [hget] at h
      obtain ⟨⟨⟩, hcheck, -⟩ := Except.bind_eq_ok.1 h
      rw [List.inj_on_of_nodup_map honce he (Value.mem_of_get? hget) hkey]
      exact require_eq_ok.1 hcheck

/-- Fields that an edit may not name are not named. -/
theorem ne_of_mem_fieldsWithout {ρ : Type} {fields : List (Field ρ)} {excluded : List Text}
    {key : Text} (hkey : key ∈ excluded)
    (h : ∀ entry ∈ patch, entry.1 ∈ fieldsWithout fields excluded) :
    ∀ entry ∈ patch, ¬ entry.1 = key := by
  intro entry hentry heq
  have hallowed := (mem_fieldsWithout.1 (h entry hentry)).2
  rw [heq] at hallowed
  exact hallowed hkey

/-- A patch of a column that passed its check does not name the identifier. -/
theorem checkColumnPatch_id {patch' : Patch} (h : checkColumnPatch patch place = .ok patch') :
    ∀ entry ∈ patch', entry.1 ≠ "id" := by
  obtain ⟨hfields, hname⟩ := checkColumnPatch_eq_ok h
  exact withName_spares (· = "id") hname (ne_of_mem_fieldsWithout List.mem_cons_self hfields)

end Edit

end SchemaDesk
