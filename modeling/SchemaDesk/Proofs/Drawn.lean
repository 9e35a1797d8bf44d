import SchemaDesk.Proofs.Minting
import SchemaDesk.Proofs.Sameness

/-!
# Identifiers drawn between two states of the supply

`DrawnBetween` says of a list of identifiers where they come from: each was drawn after the first
state and not after the second, and none stands in the list twice.  The identifiers of two
computations that run one after the other can be put together (`DrawnBetween.append`), so a list is
tracked through a run piece by piece.
-/

namespace SchemaDesk

/-- Different identifiers, all drawn between two states of the supply. -/
structure DrawnBetween (before after : IdSupply) (ids : List Value) : Prop where
  le : before.drawn ≤ after.drawn
  nodup : ids.Nodup
  drawn : ∀ id ∈ ids, ∃ n, before.drawn < n ∧ n ≤ after.drawn ∧ id = .str (identifier n)

namespace DrawnBetween

variable {before middle after : IdSupply} {ids ids' : List Value}

theorem nil (h : before.drawn ≤ after.drawn) : DrawnBetween before after [] :=
  ⟨h, List.nodup_nil, fun _ hid => absurd hid List.not_mem_nil⟩

/-- The one identifier of a single draw. -/
theorem one : DrawnBetween before ⟨before.drawn + 1⟩ [.str (identifier (before.drawn + 1))] := by
  refine ⟨Nat.le_succ _, List.nodup_singleton _, fun id hid => ?_⟩
  exact ⟨before.drawn + 1, Nat.lt_succ_self _, Nat.le_refl _, List.mem_singleton.1 hid⟩

theorem sublist (h : DrawnBetween before after ids) (hsub : ids'.Sublist ids) :
    DrawnBetween before after ids' :=
  ⟨h.le, h.nodup.sublist hsub, fun id hid => h.drawn id (hsub.subset hid)⟩

theorem perm (h : DrawnBetween before after ids) (hperm : ids'.Perm ids) :
    DrawnBetween before after ids' :=
  ⟨h.le, hperm.nodup_iff.2 h.nodup, fun id hid => h.drawn id (hperm.mem_iff.1 hid)⟩

/-- Drawing on does no harm. -/
theorem widen (h : DrawnBetween before middle ids) (hle : middle.drawn ≤ after.drawn) :
    DrawnBetween before after ids := by
  refine ⟨Nat.le_trans h.le hle, h.nodup, fun id hid => ?_⟩
  obtain ⟨n, hlt, hn, rfl⟩ := h.drawn id hid
  exact ⟨n, hlt, Nat.le_trans hn hle, rfl⟩

theorem append (h : DrawnBetween before middle ids) (h' : DrawnBetween middle after ids') :
    DrawnBetween before after (ids ++ ids') := by
  refine ⟨Nat.le_trans h.le h'.le, List.nodup_append.2 ⟨h.nodup, h'.nodup, ?_⟩, ?_⟩
  · intro a ha b hb hab
    obtain ⟨m, -, hm, rfl⟩ := h.drawn a ha
    obtain ⟨n, hn, -, rfl⟩ := h'.drawn b hb
    have hmn := identifier_inj.1 (Value.str.inj hab)
    omega
  · intro id hid
    rcases List.mem_append.1 hid with hid | hid
    · exact (h.widen h'.le).drawn id hid
    · obtain ⟨n, hlt, hn, rfl⟩ := h'.drawn id hid
      exact ⟨n, Nat.lt_of_le_of_lt h.le hlt, hn, rfl⟩

theorem isText (h : DrawnBetween before after ids) {id : Value} (hid : id ∈ ids) :
    ∃ s, id = .str s := by
  obtain ⟨n, -, -, rfl⟩ := h.drawn id hid
  exact ⟨_, rfl⟩

/-- Drawn identifiers are their own representatives. -/
theorem map_canon (h : DrawnBetween before after ids) : ids.map Value.canon = ids := by
  have hcanon : ∀ id ∈ ids, id.canon = id := by
    intro id hid
    obtain ⟨s, rfl⟩ := h.isText hid
    exact Value.canon_str s
  rw [List.map_congr_left hcanon, List.map_id']

end DrawnBetween

end SchemaDesk
