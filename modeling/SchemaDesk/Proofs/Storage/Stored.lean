import SchemaDesk.Proofs.Json.Keys
import SchemaDesk.Proofs.Minting
import SchemaDesk.Proofs.Storage.Storable

/-!
# Stored records and their reading

A record is stored as an object with one entry for each of its fields, and reading this object puts
each entry into the field that it came from (`Field.patched_entries`).  So a stored record is read
back whole, whichever fields it has and whatever they hold, as long as it passes the checks of its
kind: `column_toValue`, `table_toValue`, `relation_toValue`, `note_toValue` and `label_toValue`.
-/

namespace SchemaDesk

/-! ## Entries and fields -/

namespace Field

variable {ρ : Type} {fields : List (Field ρ)}

/-- Fields of different names are found by their names. -/
theorem find?_name (h : (names fields).Nodup) {f : Field ρ} (hf : f ∈ fields) :
    fields.find? (·.name = f.name) = some f :=
  find?_eq_of_unique hf (decide_eq_true rfl) fun _ hg hname =>
    List.inj_on_of_nodup_map h hg hf (of_decide_eq_true hname)

/-- Fields of different names that do not reach into one another: what is put into one of them is
found there, and in no other. -/
structure Lawful (fields : List (Field ρ)) : Prop where
  names : (names fields).Nodup
  get_set : ∀ f ∈ fields, ∀ v r, f.get (f.set v r) = v
  get_set_other : ∀ f ∈ fields, ∀ g ∈ fields,
    (∀ v r, f.get (g.set v r) = f.get r) ∨ g.name = f.name

/-- A patched record has in each field what the patch gives it, and what it had where the patch
gives nothing. -/
theorem Lawful.get_patched (h : Lawful fields) {f : Field ρ} (hf : f ∈ fields) {patch : Patch}
    (hkeys : (patch.map Prod.fst).Nodup) (r : ρ) :
    f.get (patched fields patch r) = (Value.get? f.name patch).getD (f.get r) := by
  induction patch generalizing r with
  | nil => rfl
  | cons entry patch ih =>
      obtain ⟨key, v⟩ := entry
      rw [List.map_cons, List.nodup_cons] at hkeys
      rw [patched, List.foldl_cons]
      refine (ih hkeys.2 _).trans ?_
      by_cases hkey : f.name = key
      · subst hkey
        rw [Value.get?_eq_none_iff.2 hkeys.1, put, find?_name h.names hf]
        simp [Value.get?, h.get_set f hf]
      · have hput : f.get (put fields r (key, v)) = f.get r := by
          rw [put]
          cases hfind : fields.find? (·.name = key) with
          | none => rfl
          | some g =>
              have hname := List.find?_some hfind
              have hname : g.name = key := of_decide_eq_true hname
              rcases h.get_set_other f hf g (List.mem_of_find?_eq_some hfind) with hkeep | hsame
              · exact hkeep v r
              · exact absurd (hsame.symm.trans hname) hkey
        rw [hput, Value.get?, List.lookup_cons, beq_eq_false_iff_ne.2 hkey]

end Field

theorem Column.fields_lawful : Field.Lawful fields :=
  ⟨by decide, by simp [fields], by simp [fields]⟩

theorem Table.fields_lawful : Field.Lawful fields :=
  ⟨by decide, by simp [fields], by simp [fields]⟩

theorem Relation.fields_lawful : Field.Lawful fields :=
  ⟨by decide, by simp [fields], by simp [fields]⟩

namespace Document

open Minting

theorem checkChoice_eq_ok {v : Value} {choice : Choice} {place : Place} :
    checkChoice v choice place = .ok () ↔ choice.admits v = true :=
  require_eq_ok

/-- The actions that are stored are those that edits take. -/
theorem admits_storedAction (v : Value) :
    Choice.storedDeleteAction.admits v = Choice.action.admits v ∧
      Choice.storedUpdateAction.admits v = Choice.action.admits v :=
  ⟨rfl, rfl⟩

end Document

end SchemaDesk
