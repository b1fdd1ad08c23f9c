import ReconcileLoop.Duration

namespace ReconcileLoop.Limiter

/-! # Exponential backoff

The failures of each item are counted, and the delay doubles with each of them up to a limit. The
view of a tally is `Tally.count`; its two operations are described by `count_bump` and
`count_clear`.
-/

/-- How often each item failed: the items with a count, each once. -/
structure Tally (κ : Type) where
  entries : List (κ × Nat) := []
deriving Repr, Inhabited

namespace Tally

variable {κ : Type} [DecidableEq κ]

/-- Counts stop at the largest 32-bit number. -/
def ceiling : Nat := UInt32.size - 1

def count (tally : Tally κ) (item : κ) : Nat :=
  ((tally.entries.find? (·.1 = item)).map (·.2)).getD 0

def clear (tally : Tally κ) (item : κ) : Tally κ :=
  ⟨tally.entries.filter (·.1 ≠ item)⟩

def bump (tally : Tally κ) (item : κ) : Tally κ :=
  ⟨(item, min (tally.count item + 1) ceiling) :: (tally.clear item).entries⟩

@[simp] theorem count_empty (item : κ) : (⟨[]⟩ : Tally κ).count item = 0 := rfl

theorem count_clear (tally : Tally κ) (item other : κ) :
    (tally.clear item).count other = if other = item then 0 else tally.count other := by
  obtain ⟨entries⟩ := tally
  induction entries with
  | nil => simp [count, clear]
  | cons entry rest ih =>
      simp only [count, clear] at ih ⊢
      by_cases here : entry.1 = item <;> by_cases there : entry.1 = other <;>
        by_cases same : other = item <;> simp_all

theorem count_bump (tally : Tally κ) (item other : κ) :
    (tally.bump item).count other =
      if other = item then min (tally.count item + 1) ceiling else tally.count other := by
  by_cases same : item = other
  · simp [count, bump, same]
  · have cleared := count_clear tally item other
    simp only [Ne.symm same, if_false] at cleared ⊢
    rw [← cleared]
    simp [count, bump, same]

end Tally

/-- The delays of one item: they start at `base` and double up to `limit`. -/
structure Backoff (κ : Type) where
  base : Nat
  limit : Nat
  failures : Tally κ := {}
deriving Repr, Inhabited

namespace Backoff

variable {κ : Type} [DecidableEq κ]

/-- After this many failures the delay is the limit, whatever it would double to. -/
def doublings : Nat := 32

def delay (backoff : Backoff κ) (earlier : Nat) : Nat :=
  if earlier < doublings then min (backoff.base * Nat.pow 2 earlier) backoff.limit
  else backoff.limit

/-- Counts a failure of the item and says how long to wait. -/
def backOff (backoff : Backoff κ) (item : κ) : Nat × Backoff κ :=
  (backoff.delay (backoff.failures.count item),
    { backoff with failures := backoff.failures.bump item })

def forget (backoff : Backoff κ) (item : κ) : Backoff κ :=
  { backoff with failures := backoff.failures.clear item }

omit [DecidableEq κ] in
theorem delay_le_limit (backoff : Backoff κ) (earlier : Nat) :
    backoff.delay earlier ≤ backoff.limit := by
  unfold delay
  split
  · exact Nat.min_le_right _ _
  · exact Nat.le_refl _

end Backoff

end ReconcileLoop.Limiter
