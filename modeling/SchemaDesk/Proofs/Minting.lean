import Mathlib.Data.List.Basic
import SchemaDesk.Ident

/-!
# Drawing identifiers

What a computation that draws identifiers comes to: the equations of `Minting.runFrom` for the steps
that such computations are made of, and how a successful run of several steps is taken apart.

Main statements: no two draws give the same identifier, because its hexadecimal digits determine the
number it was written from, and no run gives identifiers back.
-/

namespace SchemaDesk

/-! ## Identifiers tell their numbers -/

/-- The number that a hexadecimal digit stands for. -/
def hexDigitValue (c : Char) : Nat :=
  if c.toNat < 58 then c.toNat - 48 else c.toNat - 87

/-- The number that hexadecimal digits write. -/
def hexValue (cs : List Char) : Nat :=
  cs.foldl (fun n c => 16 * n + hexDigitValue c) 0

theorem hexDigitValue_digitChar {n : Nat} (h : n < 16) : hexDigitValue n.digitChar = n := by
  have all : ∀ n < 16, hexDigitValue n.digitChar = n := by decide
  exact all n h

theorem hexValue_append_singleton (cs : List Char) (c : Char) :
    hexValue (cs ++ [c]) = 16 * hexValue cs + hexDigitValue c := by
  simp [hexValue]

theorem hexValue_toDigits (n : Nat) : hexValue (Nat.toDigits 16 n) = n := by
  induction n using Nat.strongRecOn with
  | ind n ih =>
      rw [Nat.toDigits_eq_if (by omega)]
      by_cases h : n < 16
      · rw [if_pos h, hexValue, List.foldl_cons, List.foldl_nil, hexDigitValue_digitChar h]
        omega
      · rw [if_neg h, hexValue_append_singleton, ih (n / 16) (by omega),
          hexDigitValue_digitChar (by omega)]
        omega

/-- Zeros in front do not count. -/
theorem hexValue_zeros (k : Nat) (cs : List Char) :
    hexValue (List.replicate k '0' ++ cs) = hexValue cs := by
  induction k with
  | zero => rfl
  | succ k ih =>
      have hcons : ∀ ds : List Char, hexValue ('0' :: ds) = hexValue ds := fun ds => by
        simp [hexValue, hexDigitValue]
      rw [List.replicate_succ, List.cons_append, hcons, ih]

theorem hexValue_hexadecimal (width n : Nat) : hexValue (Value.hexadecimal width n) = n := by
  rw [Value.hexadecimal, hexValue_zeros, hexValue_toDigits]

theorem Text.ofChars_injective : Function.Injective Text.ofChars :=
  List.map_injective_iff.2 fun _ _ h => CodePoint.char.inj h

/-- Identifiers drawn at different times are different. -/
theorem identifier_injective : Function.Injective identifier := by
  intro m n h
  have hdigits := Text.ofChars_injective (List.append_cancel_right h)
  rw [← hexValue_hexadecimal 8 m, hdigits, hexValue_hexadecimal]

theorem identifier_inj {m n : Nat} : identifier m = identifier n ↔ m = n :=
  identifier_injective.eq_iff

/-! ## Outcomes -/

/-- What an outcome failed with, if it did. -/
def Failure.of? {α : Type} : Except Failure α → Option Failure
  | .ok _ => none
  | .error failure => some failure

/-- Of two steps the first failure counts. -/
theorem Failure.of?_bind {α β : Type} {e : Except Failure α} {f : α → Except Failure β}
    {second : Option Failure} (hf : ∀ a, of? (f a) = second) :
    of? (e >>= f) = (of? e).or second := by
  cases e with
  | error failure => rfl
  | ok a => exact hf a

/-- A step that cannot fail does not count. -/
theorem Failure.of?_bind_ok {α β : Type} (e : Except Failure α) (f : α → β) :
    of? (e >>= fun a => .ok (f a)) = of? e := by
  cases e <;> rfl

/-! ## Running a computation -/

namespace Minting

variable {α β σ : Type} {ids ids' : IdSupply}

/-- A run that succeeds: the computation turns one supply into another and gives an answer. -/
def Gives (m : Minting α) (ids : IdSupply) (a : α) (ids' : IdSupply) : Prop :=
  m.runFrom ids = (.ok a, ids')

/-- A run gives one thing only. -/
theorem gives_unique {m : Minting α} {a b : α} {ids₁ ids₂ : IdSupply} (h : Gives m ids a ids₁)
    (h' : Gives m ids b ids₂) : a = b ∧ ids₁ = ids₂ := by
  rw [Gives, show runFrom m ids = (.ok a, ids₁) from h] at h'
  cases h'
  exact ⟨rfl, rfl⟩

/-- A run that ends well gives something. -/
theorem gives_of_isOk {m : Minting α} (hok : (m.runFrom ids).1.isOk = true)
    (hids : (m.runFrom ids).2 = ids') : ∃ a, Gives m ids a ids' := by
  rcases h : m.runFrom ids with ⟨_ | a, later⟩
  · rw [h] at hok
    cases hok
  · rw [h] at hids
    rw [← hids]
    exact ⟨a, h⟩

/-- A run that ends well, with something that passes a check. -/
theorem gives_of_any {m : Minting α} {check : α → Bool}
    (hcheck : (m.runFrom ids).1.toOption.any check = true) (hids : (m.runFrom ids).2 = ids') :
    ∃ a, Gives m ids a ids' ∧ check a = true := by
  rcases h : m.runFrom ids with ⟨_ | a, later⟩
  · rw [h] at hcheck
    cases hcheck
  · rw [h] at hcheck hids
    rw [← hids]
    exact ⟨a, h, hcheck⟩

@[simp] theorem gives_pure {a b : α} : Gives (pure a) ids b ids' ↔ a = b ∧ ids = ids' := by
  show (Except.ok a, ids) = (Except.ok b, ids') ↔ _
  simp

@[simp] theorem gives_report {p : Problem} {a : α} : ¬ Gives (report p) ids a ids' := by
  show ¬ ((Except.error (.problem p) : Except Failure α), ids) = (Except.ok a, ids')
  simp

@[simp] theorem gives_mint {id : Text} :
    Gives mint ids id ids' ↔ identifier (ids.drawn + 1) = id ∧ ⟨ids.drawn + 1⟩ = ids' := by
  show ((Except.ok (identifier (ids.drawn + 1)) : Except Failure Text), IdSupply.mk _) = _ ↔ _
  simp

@[simp] theorem gives_ofExcept {e : Except Failure α} {a : α} :
    Gives (ofExcept e) ids a ids' ↔ e = .ok a ∧ ids = ids' := by
  cases e with
  | error failure =>
      show ((Except.error failure : Except Failure α), ids) = (Except.ok a, ids') ↔ _
      simp
  | ok b =>
      show ((Except.ok b : Except Failure α), ids) = (Except.ok a, ids') ↔ _
      simp

theorem runFrom_bind (m : Minting α) (f : α → Minting β) :
    runFrom (m >>= f) ids =
      match runFrom m ids with
      | (.ok a, later) => runFrom (f a) later
      | (.error e, later) => (.error e, later) := by
  rcases h : runFrom m ids with ⟨result, later⟩
  simp only [runFrom, ExceptT.run, StateT.run] at h
  simp only [runFrom, ExceptT.run, StateT.run, bind, ExceptT.bind, ExceptT.mk, StateT.bind, h]
  cases result <;> rfl

/-- A run of two steps succeeds when both do, the second one on the supply that the first one
left. -/
@[simp] theorem gives_bind {m : Minting α} {f : α → Minting β} {b : β} :
    Gives (m >>= f) ids b ids' ↔ ∃ a mid, Gives m ids a mid ∧ Gives (f a) mid b ids' := by
  rw [Gives, runFrom_bind]
  constructor
  · intro h
    rcases hm : runFrom m ids with ⟨e | a, mid⟩
    · simp [hm] at h
    · rw [hm] at h
      exact ⟨a, mid, hm, h⟩
  · rintro ⟨a, mid, hm, hf⟩
    rw [show runFrom m ids = (.ok a, mid) from hm]
    exact hf

@[simp] theorem gives_map {m : Minting α} {f : α → β} {b : β} :
    Gives (f <$> m) ids b ids' ↔ ∃ a, Gives m ids a ids' ∧ f a = b := by
  rw [map_eq_pure_bind, gives_bind]
  constructor
  · rintro ⟨a, mid, hm, hpure⟩
    obtain ⟨hb, rfl⟩ := gives_pure.1 hpure
    exact ⟨a, hm, hb⟩
  · rintro ⟨a, hm, hb⟩
    exact ⟨a, ids', hm, gives_pure.2 ⟨hb, rfl⟩⟩

/-- What holds at the start of a loop and is kept by every turn holds at its end. -/
theorem foldlM_keeps (holds : σ → IdSupply → Prop) {f : σ → α → Minting σ} {xs : List α}
    {s s' : σ} (h : Gives (xs.foldlM f s) ids s' ids') (start : holds s ids)
    (turn : ∀ x ∈ xs, ∀ s ids s' ids', holds s ids → Gives (f s x) ids s' ids' → holds s' ids') :
    holds s' ids' := by
  induction xs generalizing s ids with
  | nil =>
      obtain ⟨rfl, rfl⟩ := gives_pure.1 h
      exact start
  | cons x xs ih =>
      rw [List.foldlM_cons] at h
      obtain ⟨mid, idsMid, hx, hrest⟩ := gives_bind.1 h
      exact ih hrest (turn x List.mem_cons_self s ids mid idsMid start hx)
        fun y hy => turn y (List.mem_cons_of_mem _ hy)

/-- What a loop gives, item by item. -/
theorem forall₂_of_mapM {f : β → Minting α} {xs : List β} {ys : List α}
    (h : Gives (xs.mapM f) ids ys ids') :
    List.Forall₂ (fun x y => ∃ before after, Gives (f x) before y after) xs ys := by
  induction xs generalizing ys ids with
  | nil =>
      obtain ⟨rfl, -⟩ := gives_pure.1 h
      exact .nil
  | cons x xs ih =>
      rw [List.mapM_cons] at h
      obtain ⟨y, mid, hy, h⟩ := gives_bind.1 h
      obtain ⟨rest, later, hrest, h⟩ := gives_bind.1 h
      obtain ⟨rfl, rfl⟩ := gives_pure.1 h
      exact .cons ⟨ids, mid, hy⟩ (ih hrest)

/-! ## Results that no identifier takes part in -/

/-- A computation that succeeds from every supply, always with the same result. -/
def Yields (m : Minting α) (a : α) : Prop :=
  ∀ ids, ∃ ids', m.Gives ids a ids'

namespace Yields

theorem of_pure (a : α) : Yields (pure a) a :=
  fun ids => ⟨ids, gives_pure.2 ⟨rfl, rfl⟩⟩

theorem bind {m : Minting α} {f : α → Minting β} {a : α} {b : β} (h : Yields m a)
    (hf : Yields (f a) b) : Yields (m >>= f) b := by
  intro ids
  obtain ⟨mid, hm⟩ := h ids
  obtain ⟨ids', hb⟩ := hf mid
  exact ⟨ids', gives_bind.2 ⟨a, mid, hm, hb⟩⟩

/-- A loop over what some items were made into gives the items back if every turn does. -/
theorem mapM_map {f : β → Minting α} {g : α → β} {xs : List α}
    (h : ∀ x ∈ xs, Yields (f (g x)) x) : Yields ((xs.map g).mapM f) xs := by
  induction xs with
  | nil => exact of_pure []
  | cons x xs ih =>
      rw [List.map_cons, List.mapM_cons]
      refine (h x List.mem_cons_self).bind ?_
      exact (ih fun y hy => h y (List.mem_cons_of_mem _ hy)).bind (of_pure _)

end Yields

/-! ## Failures that no identifier takes part in -/

/-- A computation that fails with the given failure, if there is one, from every supply; else it
succeeds from every supply. -/
def FailsWith (m : Minting α) (failure : Option Failure) : Prop :=
  ∀ ids, Failure.of? (m.runFrom ids).1 = failure

namespace FailsWith

variable {m : Minting α}

theorem of_pure (a : α) : FailsWith (pure a) none := fun _ => rfl

theorem of_mint : FailsWith mint none := fun _ => rfl

theorem of_except (e : Except Failure α) : FailsWith (ofExcept e) (Failure.of? e) := fun _ => by
  cases e <;> rfl

/-- A computation that does not fail gives something. -/
theorem gives (h : FailsWith m none) (ids : IdSupply) : ∃ a ids', m.Gives ids a ids' := by
  have hids := h ids
  rcases hm : m.runFrom ids with ⟨failure | a, ids'⟩
  · rw [hm] at hids
    cases hids
  · exact ⟨a, ids', hm⟩

/-- Of two steps the first failure counts. -/
theorem bind {f : α → Minting β} {first second : Option Failure} (h : FailsWith m first)
    (hf : ∀ a, FailsWith (f a) second) : FailsWith (m >>= f) (first.or second) := by
  intro ids
  have hids := h ids
  rw [runFrom_bind]
  rcases hm : m.runFrom ids with ⟨failure | a, later⟩
  · rw [hm] at hids
    rw [← hids]
    rfl
  · rw [hm] at hids
    rw [← hids]
    exact hf a later

/-- A step that cannot fail does not count. -/
theorem bind_safe {f : α → Minting β} {failure : Option Failure} (h : FailsWith m failure)
    (hf : ∀ a, FailsWith (f a) none) : FailsWith (m >>= f) failure := by
  simpa using h.bind hf

/-- Of the turns of a loop the first one counts that fails. -/
theorem mapM {f : β → Minting α} {failure : β → Option Failure}
    (h : ∀ x, FailsWith (f x) (failure x)) (xs : List β) :
    FailsWith (xs.mapM f) (xs.findSome? failure) := by
  induction xs with
  | nil => exact of_pure []
  | cons x xs ih =>
      rw [List.mapM_cons, List.findSome?_cons]
      have hboth := (h x).bind fun a => ih.bind fun as => of_pure (a :: as)
      cases hx : failure x <;> simpa [hx] using hboth

theorem foldlM {f : σ → β → Minting σ} {failure : β → Option Failure}
    (h : ∀ s x, FailsWith (f s x) (failure x)) (xs : List β) (s : σ) :
    FailsWith (xs.foldlM f s) (xs.findSome? failure) := by
  induction xs generalizing s with
  | nil => exact of_pure s
  | cons x xs ih =>
      rw [List.foldlM_cons, List.findSome?_cons]
      have hboth := (h s x).bind ih
      cases hx : failure x <;> simpa [hx] using hboth

theorem foldlM_safe {f : σ → β → Minting σ} (h : ∀ s x, FailsWith (f s x) none) (xs : List β)
    (s : σ) : FailsWith (xs.foldlM f s) none := by
  have hloop := foldlM h xs s
  rwa [List.findSome?_eq_none_iff.2 fun _ _ => rfl] at hloop

end FailsWith

/-! ## Failures of a kind -/

/-- A computation that fails, if it does, with an allowed failure only. -/
def FailsOnly (m : Minting α) (allowed : Failure → Prop) : Prop :=
  ∀ ids failure, (m.runFrom ids).1 = .error failure → allowed failure

namespace FailsOnly

variable {m : Minting α} {allowed : Failure → Prop}

theorem of_pure (a : α) : FailsOnly (pure a) allowed := fun _ _ h => nomatch h

theorem of_mint : FailsOnly mint allowed := fun _ _ h => nomatch h

theorem of_report {p : Problem} (h : allowed (.problem p)) :
    FailsOnly (report p : Minting α) allowed := by
  rintro _ _ ⟨⟩
  exact h

theorem of_except {e : Except Failure α} (h : ∀ failure, e = .error failure → allowed failure) :
    FailsOnly (ofExcept e) allowed := by
  intro ids failure hrun
  cases e with
  | ok a => cases hrun
  | error _ =>
      cases hrun
      exact h failure rfl

theorem mono {allowed' : Failure → Prop} (h : FailsOnly m allowed)
    (himp : ∀ failure, allowed failure → allowed' failure) : FailsOnly m allowed' :=
  fun ids failure hrun => himp failure (h ids failure hrun)

/-- Two steps fail only as one of them does, the second one on what the first one gave. -/
theorem bind {f : α → Minting β} (h : FailsOnly m allowed)
    (hf : ∀ a before after, m.Gives before a after → FailsOnly (f a) allowed) :
    FailsOnly (m >>= f) allowed := by
  intro ids failure hrun
  rw [runFrom_bind] at hrun
  rcases hm : m.runFrom ids with ⟨e | a, later⟩
  · rw [hm] at hrun
    cases hrun
    exact h ids failure (by rw [hm])
  · rw [hm] at hrun
    exact hf a ids later hm later failure hrun

/-- A loop fails only as one of its turns does. -/
theorem mapM {f : β → Minting α} {xs : List β} (h : ∀ x ∈ xs, FailsOnly (f x) allowed) :
    FailsOnly (xs.mapM f) allowed := by
  induction xs with
  | nil => exact of_pure []
  | cons x xs ih =>
      rw [List.mapM_cons]
      refine (h x List.mem_cons_self).bind fun y _ _ _ => ?_
      exact (ih fun z hz => h z (List.mem_cons_of_mem _ hz)).bind fun ys _ _ _ => of_pure _

end FailsOnly

end Minting

end SchemaDesk
