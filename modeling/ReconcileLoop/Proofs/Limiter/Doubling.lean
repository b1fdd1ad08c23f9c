import Mathlib.Algebra.Group.Nat.Defs
import ReconcileLoop.Limiter.Backoff

namespace ReconcileLoop.Limiter

/-! # Delays that double

A backoff keeps nothing but counts, and counts only so far. `Call.failed` reads off the calls alone
how often an item failed since it was last forgotten, and a backoff answers as if it had kept that
number (`Backoff.delay_after`): the delay doubles with each failure up to the limit. After
`Backoff.doublings` failures in a row it is the limit, also where doubling would not have reached
that yet.
-/

variable {κ : Type} [DecidableEq κ]

/-- What is asked of a limiter and told to it. -/
inductive Call (κ : Type) where
  | backOff (item : κ)
  | forget (item : κ)

/-- How often an item failed since it was last forgotten, the newest call first. -/
def Call.failed (item : κ) : List (Call κ) → Nat
  | [] => 0
  | .backOff other :: earlier => if item = other then failed item earlier + 1 else failed item earlier
  | .forget other :: earlier => if item = other then 0 else failed item earlier

namespace Backoff

def perform (backoff : Backoff κ) : Call κ → Backoff κ
  | .backOff item => (backoff.backOff item).2
  | .forget item => backoff.forget item

/-- A new backoff after some calls, the newest of them first. -/
def after (base limit : Nat) : List (Call κ) → Backoff κ
  | [] => { base, limit }
  | call :: earlier => (after base limit earlier).perform call

variable (base limit : Nat) (calls : List (Call κ)) (item : κ)

@[simp] theorem base_after : (after base limit calls).base = base := by
  induction calls with
  | nil => rfl
  | cons call earlier ih => cases call <;> exact ih

@[simp] theorem limit_after : (after base limit calls).limit = limit := by
  induction calls with
  | nil => rfl
  | cons call earlier ih => cases call <;> exact ih

/-- A backoff counts the failures since the last time the item was forgotten, up to a ceiling. -/
theorem count_after :
    (after base limit calls).failures.count item = min (Call.failed item calls) Tally.ceiling := by
  induction calls with
  | nil => simp [after, Call.failed]
  | cons call earlier ih =>
      cases call with
      | backOff other =>
          simp only [after, perform, backOff, Tally.count_bump, Call.failed]
          split
          · next same =>
              subst same
              rw [ih]
              omega
          · exact ih
      | forget other =>
          simp only [after, perform, forget, Tally.count_clear, Call.failed]
          split
          · simp
          · exact ih

omit [DecidableEq κ] in
/-- The ceiling of the counts is out of reach of the doublings. -/
theorem delay_min_ceiling (backoff : Backoff κ) (failures : Nat) :
    backoff.delay (min failures Tally.ceiling) = backoff.delay failures := by
  have far : doublings ≤ Tally.ceiling := by decide
  unfold delay
  by_cases few : failures < doublings
  · rw [Nat.min_eq_left (by omega)]
  · rw [if_neg few, if_neg (by omega)]

theorem delay_after :
    ((after base limit calls).backOff item).1 =
      (after base limit calls).delay (Call.failed item calls) := by
  rw [← delay_min_ceiling, ← count_after base limit]
  rfl

/-- Whatever happened to other items, the delay of an item that failed `n` times since it was last
forgotten is `base * 2 ^ n` up to the limit, with the product as large as it may be, while `n` is
below `doublings`. From there on it is the limit, which is the same exactly if `base * 2 ^ n` has
grown to the limit by then. -/
theorem delay_eq_doubled_iff :
    (((after base limit calls).backOff item).1 =
      if Call.failed item calls < doublings then min (base * 2 ^ Call.failed item calls) limit
      else limit) ∧
    (((after base limit calls).backOff item).1 = min (base * 2 ^ Call.failed item calls) limit ↔
      Call.failed item calls < doublings ∨ limit ≤ base * 2 ^ Call.failed item calls) := by
  have answered : ((after base limit calls).backOff item).1 =
      if Call.failed item calls < doublings then min (base * 2 ^ Call.failed item calls) limit
      else limit := by
    rw [delay_after, delay, base_after, limit_after]
    rfl
  refine ⟨answered, ?_⟩
  rw [answered]
  split
  · next few => exact ⟨fun _ => .inl few, fun _ => rfl⟩
  · next many =>
      rw [or_iff_right many, Nat.min_def]
      split <;> omega

/-- Nothing doubled stays nothing, but after 32 failures an item is delayed all the same. -/
theorem not_doubled_of_many :
    ¬∀ (base limit : Nat) (calls : List (Call Nat)) (item : Nat),
      ((after base limit calls).backOff item).1 =
        min (base * 2 ^ Call.failed item calls) limit := by
  intro claimed
  have doubled := claimed 0 1 (List.replicate 32 (.backOff 7)) 7
  have failures : Call.failed 7 (List.replicate 32 (.backOff 7)) = 32 := by decide
  rw [delay_after, failures] at doubled
  simp [delay, doublings] at doubled

end Backoff

end ReconcileLoop.Limiter
