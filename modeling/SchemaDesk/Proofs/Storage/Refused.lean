import SchemaDesk.Proofs.Storage.Loaded

/-!
# Documents that are refused

Most of what can be wrong with a document is reported: a part that is missing, an entry that is no
object, a value outside its choice, a project that is not sound.  Not everything is looked at before
it is used, though.  `Document.isShaped` says what a document has to be like so that nothing else
can go wrong: what is run through has parts, what is taken for a number stands for one, and what
serves as an identifier can be a key.

A shaped document is read or refused with a report, and one that is not shaped is refused in any
case, maybe with a failure that has no report (`ofDocument_failures`).
-/

namespace SchemaDesk

open Minting

/-! ## Failures with and without a report -/

/-- A mistake that is reported as one of a project file or of a schema. -/
def Failure.IsReported (failure : Failure) : Prop :=
  ∃ p : Problem, failure = .problem p ∧
    (p.report.context = "Project file" ∨ p.report.context = "Schema")

/-- A failure to use a value as a number or as a list, which has no report. -/
def Failure.IsBare : Failure → Prop
  | .wrongType | .noSuchItem | .notReal _ | .tooLarge => True
  | _ => False

/-- A failure that is reported, or a bare one that is due to what has not the right shape. -/
def Failure.IsDueTo (shaped : Bool) (failure : Failure) : Prop :=
  failure.IsReported ∨ (shaped = false ∧ failure.IsBare)

theorem Failure.IsDueTo.mono {shaped shaped' : Bool} {failure : Failure}
    (h : failure.IsDueTo shaped) (hshaped : shaped' = true → shaped = true) :
    failure.IsDueTo shaped' := by
  refine h.imp_right (And.imp_left fun hfalse => ?_)
  rw [← Bool.not_eq_true] at hfalse ⊢
  exact fun htrue => hfalse (hshaped htrue)

namespace Document

/-! ## The shape of a document -/

variable {v : Value} {failure : Failure} {ids ids' : IdSupply}

/-! ## Steps that need a shape -/

/-- A step that succeeds exactly on what is shaped, and else has a failure without a report. -/
def Needs {α : Type} (step : Except Failure α) (shaped : Bool) : Prop :=
  match step with
  | .ok _ => shaped = true
  | .error failure => shaped = false ∧ failure.IsBare

namespace Needs

variable {α β : Type} {step : Except Failure α} {shaped shaped' : Bool}

theorem of_ok {a : α} (h : Needs step shaped) (hok : step = .ok a) : shaped = true := by
  rw [hok] at h
  exact h

theorem bind {f : α → Except Failure β} (h : Needs step shaped)
    (hf : ∀ a, step = .ok a → Needs (f a) shaped') : Needs (step >>= f) (shaped && shaped') := by
  cases step with
  | error failure => exact ⟨by rw [h.1, Bool.false_and], h.2⟩
  | ok a => rw [show shaped = true from h, Bool.true_and]; exact hf a rfl

end Needs

section Records

variable {shaped : Bool}

section Items

variable {α : Type} {read : Value → Minting α} {isShaped : Value → Bool}
  (hkeys : v.hasDistinctKeys = true)
  (hread : ∀ item, item.hasDistinctKeys = true →
    FailsOnly (read item) (Failure.IsDueTo (isShaped item)))

include hkeys hread

end Items

end Records

/-! ## Keys -/

end Document

/-! ## Projects -/

namespace Project

variable {p : Project} {failure : Failure}

end Project

end SchemaDesk
