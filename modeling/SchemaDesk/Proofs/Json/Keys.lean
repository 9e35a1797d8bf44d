import SchemaDesk.Json.Reader
import SchemaDesk.Proofs.Schema.Sound

/-!
# Keys of objects

An object is looked up by its keys, and a record takes in its entries one after the other.  Both
agree where no key stands twice, which is how the reader of JSON texts leaves every object that it
builds: the last value of a repeated key takes the place of the earlier ones
(`Json.parse_hasDistinctKeys`).
-/

namespace SchemaDesk

namespace Value

mutual

/-- Whether no object in a value, at any depth, has a key twice. -/
def hasDistinctKeys : Value → Bool
  | .list items => haveDistinctKeys items
  | .object entries => decide (entries.map Prod.fst).Nodup && entriesHaveDistinctKeys entries
  | _ => true

/-- Whether no object in some values has a key twice. -/
def haveDistinctKeys : List Value → Bool
  | [] => true
  | v :: rest => hasDistinctKeys v && haveDistinctKeys rest

/-- Whether no object in the values of some entries has a key twice. -/
def entriesHaveDistinctKeys : List (Text × Value) → Bool
  | [] => true
  | (_, v) :: rest => hasDistinctKeys v && entriesHaveDistinctKeys rest

end

theorem haveDistinctKeys_iff {items : List Value} :
    haveDistinctKeys items = true ↔ ∀ v ∈ items, v.hasDistinctKeys = true := by
  induction items with
  | nil => simp [haveDistinctKeys]
  | cons v rest ih => simp [haveDistinctKeys, ih]

theorem entriesHaveDistinctKeys_iff {entries : List (Text × Value)} :
    entriesHaveDistinctKeys entries = true ↔ ∀ e ∈ entries, e.2.hasDistinctKeys = true := by
  induction entries with
  | nil => simp [entriesHaveDistinctKeys]
  | cons e rest ih => simp [entriesHaveDistinctKeys, ih]

@[simp] theorem hasDistinctKeys_list {items : List Value} :
    (Value.list items).hasDistinctKeys = true ↔ ∀ v ∈ items, v.hasDistinctKeys = true := by
  rw [hasDistinctKeys, haveDistinctKeys_iff]

@[simp] theorem hasDistinctKeys_object {entries : List (Text × Value)} :
    (Value.object entries).hasDistinctKeys = true ↔
      (entries.map Prod.fst).Nodup ∧ ∀ e ∈ entries, e.2.hasDistinctKeys = true := by
  rw [hasDistinctKeys, Bool.and_eq_true, decide_eq_true_iff, entriesHaveDistinctKeys_iff]

@[simp] theorem hasDistinctKeys_str (s : Text) : (Value.str s).hasDistinctKeys = true := by
  simp [hasDistinctKeys]

@[simp] theorem hasDistinctKeys_null : Value.null.hasDistinctKeys = true := by
  simp [hasDistinctKeys]

/-- What is looked up stands in an entry. -/
theorem mem_of_get? {key : Text} {entries : List (Text × Value)} {v : Value}
    (h : get? key entries = some v) : (key, v) ∈ entries := by
  induction entries with
  | nil => cases h
  | cons e rest ih =>
      rw [get?, List.lookup_cons] at h
      split at h
      · next heq =>
          rw [eq_of_beq heq, ← Option.some.inj h]
          exact List.mem_cons_self
      · exact List.mem_cons_of_mem _ (ih h)

/-- What is not found is the value of no entry. -/
theorem get?_eq_none_iff {key : Text} {entries : List (Text × Value)} :
    get? key entries = none ↔ key ∉ entries.map Prod.fst := by
  rw [get?, List.lookup_eq_none_iff]
  simp only [bne_iff_ne, List.mem_map, not_exists, not_and]
  exact forall₂_congr fun e _ => ne_comm

/-- Entries that are taken away for their keys are no entries of other keys. -/
theorem get?_filter {p : Text → Bool} {key : Text} (h : p key = true)
    (entries : List (Text × Value)) :
    get? key (entries.filter fun e => p e.1) = get? key entries := by
  induction entries with
  | nil => rfl
  | cons e rest ih =>
      rw [get?] at ih ⊢
      by_cases hkey : key = e.1
      · rw [List.filter_cons, if_pos (hkey ▸ h), List.lookup_cons, List.lookup_cons]
        simp [hkey]
      · rw [List.lookup_cons, beq_eq_false_iff_ne.2 hkey, ← ih, List.filter_cons]
        split
        · rw [List.lookup_cons, beq_eq_false_iff_ne.2 hkey]
        · rfl

/-- An entry at the end counts where no earlier one has its key. -/
theorem get?_concat (key k : Text) (v : Value) (entries : List (Text × Value)) :
    get? key (entries.concat (k, v)) =
      (get? key entries).or (if key = k then some v else none) := by
  rw [get?, List.concat_eq_append, List.lookup_append, List.lookup_cons, List.lookup_nil]
  by_cases h : key = k
  · simp [h]
  · simp [beq_eq_false_iff_ne.2 h, h]

/-- What can be run through has no more repeated keys in its parts than it has itself. -/
theorem hasDistinctKeys_elements {v : Value} {parts : List Value} (h : v.hasDistinctKeys = true)
    (hparts : v.elements? = some parts) : ∀ part ∈ parts, part.hasDistinctKeys = true := by
  cases v with
  | list items =>
      cases hparts
      exact hasDistinctKeys_list.1 h
  | str s =>
      cases hparts
      simp
  | object entries =>
      cases hparts
      intro part hpart
      obtain ⟨e, -, rfl⟩ := List.mem_map.1 hpart
      exact hasDistinctKeys_str e.1
  | _ => cases hparts

end Value

namespace Json

open Value

/-- Setting the value of a key adds the key or leaves the keys as they are. -/
theorem setEntry_keys (key : Text) (v : Value) (entries : List (Text × Value)) :
    (setEntry key v entries).map Prod.fst =
      if key ∈ entries.map Prod.fst then entries.map Prod.fst
      else entries.map Prod.fst ++ [key] := by
  induction entries with
  | nil => rfl
  | cons e rest ih =>
      obtain ⟨k, old⟩ := e
      by_cases h : k = key
      · simp [setEntry, h]
      · simp only [setEntry, if_neg h, List.map_cons, ih, List.mem_cons, Ne.symm h, false_or]
        split <;> rfl

theorem mem_setEntry {key : Text} {v : Value} {entries : List (Text × Value)} {e : Text × Value}
    (h : e ∈ setEntry key v entries) : e.2 = v ∨ e ∈ entries := by
  induction entries with
  | nil =>
      rw [List.mem_singleton.1 h]
      exact .inl rfl
  | cons first rest ih =>
      obtain ⟨k, old⟩ := first
      rw [setEntry] at h
      split at h
      · rcases List.mem_cons.1 h with rfl | h
        · exact .inl rfl
        · exact .inr (List.mem_cons_of_mem _ h)
      · rcases List.mem_cons.1 h with rfl | h
        · exact .inr List.mem_cons_self
        · exact (ih h).imp_right (List.mem_cons_of_mem _)

/-- So a value may be set in an object of distinct keys. -/
theorem hasDistinctKeys_setEntry {key : Text} {v : Value} {entries : List (Text × Value)}
    (h : (Value.object entries).hasDistinctKeys = true) (hv : v.hasDistinctKeys = true) :
    (Value.object (setEntry key v entries)).hasDistinctKeys = true := by
  rw [hasDistinctKeys_object] at h ⊢
  refine ⟨?_, fun e he => ?_⟩
  · rw [setEntry_keys]
    split
    · exact h.1
    · next hnew => exact List.nodup_append.2 ⟨h.1, List.nodup_singleton _, by
        rintro a ha b hb rfl
        exact hnew (List.mem_singleton.1 hb ▸ ha)⟩
  · rcases mem_setEntry he with heq | he
    · rw [heq]
      exact hv
    · exact h.2 e he

/-- A number has no keys. -/
theorem hasDistinctKeys_unsigned {negative : Bool} {cs rest : List Char} {v : Value}
    (h : unsigned negative cs = .ok (v, rest)) : v.hasDistinctKeys = true := by
  unfold unsigned at h
  split at h
  all_goals
    simp only at h
    split at h
    · cases h
    · split at h
      · split at h
        · cases h
          simp [hasDistinctKeys]
        · cases h
      · cases h
        simp [hasDistinctKeys]

/-- Names and numbers have no keys. -/
theorem hasDistinctKeys_scalar {cs rest : List Char} {v : Value}
    (h : scalar cs = .ok (v, rest)) : v.hasDistinctKeys = true := by
  unfold scalar at h
  split at h
  · next found hfound =>
      have hnames : ∀ entry ∈ names, entry.2.hasDistinctKeys = true := by decide
      obtain ⟨entry, hentry, hmap⟩ := List.exists_of_findSome?_eq_some hfound
      obtain ⟨left, -, rfl⟩ := Option.map_eq_some_iff.1 hmap
      cases h
      exact hnames entry hentry
  · split at h
    · exact hasDistinctKeys_unsigned h
    · exact hasDistinctKeys_unsigned h

/-- What the reader builds in so many steps has distinct keys. -/
structure BuildsDistinct (steps : Nat) : Prop where
  value : ∀ {depth cs v rest}, value steps depth cs = .ok (v, rest) → v.hasDistinctKeys = true
  items : ∀ {depth cs vs rest}, items steps depth cs = .ok (vs, rest) →
    ∀ v ∈ vs, v.hasDistinctKeys = true
  members : ∀ {depth entries cs entries' rest}, (Value.object entries).hasDistinctKeys = true →
    members steps depth entries cs = .ok (entries', rest) →
      (Value.object entries').hasDistinctKeys = true

namespace BuildsDistinct

variable {steps depth : Nat} {cs rest : List Char}

theorem value_succ (ih : BuildsDistinct steps) {v : Value}
    (h : Json.value (steps + 1) depth cs = .ok (v, rest)) : v.hasDistinctKeys = true := by
  rw [Json.value.eq_def] at h
  simp only at h
  split at h
  · obtain ⟨⟨s, later⟩, -, h⟩ := Except.bind_eq_ok.1 h
    cases h
    exact hasDistinctKeys_str s
  · split at h
    · cases h
    · split at h
      · cases h
        simp
      · obtain ⟨⟨vs, later⟩, hvs, h⟩ := Except.bind_eq_ok.1 h
        cases h
        exact hasDistinctKeys_list.2 (ih.items hvs)
  · split at h
    · cases h
    · split at h
      · cases h
        simp
      · obtain ⟨⟨entries, later⟩, hentries, h⟩ := Except.bind_eq_ok.1 h
        cases h
        exact ih.members (by simp) hentries
  · exact hasDistinctKeys_scalar h

theorem items_succ (ih : BuildsDistinct steps) {vs : List Value}
    (h : Json.items (steps + 1) depth cs = .ok (vs, rest)) :
    ∀ v ∈ vs, v.hasDistinctKeys = true := by
  rw [Json.items.eq_def] at h
  obtain ⟨⟨v, later⟩, hv, h⟩ := Except.bind_eq_ok.1 h
  simp only at h
  split at h
  · cases h
    intro w hw
    rw [List.mem_singleton.1 hw]
    exact ih.value hv
  · obtain ⟨⟨more, last⟩, hmore, h⟩ := Except.bind_eq_ok.1 h
    cases h
    exact List.forall_mem_cons.2 ⟨ih.value hv, ih.items hmore⟩
  · cases h

theorem members_succ (ih : BuildsDistinct steps) {entries entries' : List (Text × Value)}
    (hentries : (Value.object entries).hasDistinctKeys = true)
    (h : Json.members (steps + 1) depth entries cs = .ok (entries', rest)) :
    (Value.object entries').hasDistinctKeys = true := by
  rw [Json.members.eq_def] at h
  simp only at h
  split at h
  case h_2 => cases h
  obtain ⟨⟨key, later⟩, -, h⟩ := Except.bind_eq_ok.1 h
  simp only at h
  split at h
  case h_2 => cases h
  obtain ⟨⟨v, later⟩, hv, h⟩ := Except.bind_eq_ok.1 h
  have hset : (Value.object (setEntry key v entries)).hasDistinctKeys = true :=
    hasDistinctKeys_setEntry hentries (ih.value hv)
  simp only at h
  split at h
  · cases h
    exact hset
  · exact ih.members hset h
  · cases h

end BuildsDistinct

theorem buildsDistinct (steps : Nat) : BuildsDistinct steps := by
  induction steps with
  | zero => exact ⟨(nomatch ·), (nomatch ·), fun _ h => by cases h⟩
  | succ steps ih => exact ⟨ih.value_succ, ih.items_succ, ih.members_succ⟩

/-- No object in a value that was read from a JSON text has a key twice. -/
theorem parse_hasDistinctKeys {text : List Char} {v : Value} (h : parse text = .ok v) :
    v.hasDistinctKeys = true := by
  obtain ⟨⟨w, rest⟩, hw, h⟩ := Except.bind_eq_ok.1 h
  simp only at h
  split at h
  · cases h
    exact (buildsDistinct _).value hw
  · cases h

end Json

end SchemaDesk
