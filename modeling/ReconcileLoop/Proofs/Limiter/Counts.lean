import ReconcileLoop.Controller.Settings

namespace ReconcileLoop.Limiter

/-! # What a tree of limiters counts, and how long it makes wait

All backoffs in a tree are asked and told together, so they agree on the failures of every item,
and the tree counts what each of them counts. No delay is longer than the longest that any part of
the tree could ask for, which is `Limiter.cap`.
-/

variable {κ : Type}

mutual

/-- Whether there is a backoff somewhere in the tree. -/
def HasBackoff : Limiter κ → Prop
  | exponential _ => True
  | bucket _ => False
  | longest limiters => AnyHasBackoff limiters

def AnyHasBackoff : List (Limiter κ) → Prop
  | [] => False
  | limiter :: rest => HasBackoff limiter ∨ AnyHasBackoff rest

end

mutual

/-- The longest delay that the tree could ask for. -/
def cap : Limiter κ → Nat
  | exponential backoff => backoff.limit
  | bucket _ => Bucket.longestWait
  | longest limiters => capAll limiters

def capAll : List (Limiter κ) → Nat
  | [] => 0
  | limiter :: rest => max (cap limiter) (capAll rest)

end

theorem cap_combined (base limit : Nat) (rate : Float) (burst now : Nat) :
    (combined base limit rate burst now : Limiter κ).cap = max limit Bucket.longestWait := by
  simp [combined, cap, capAll]

variable [DecidableEq κ]

mutual

/-- All backoffs in the tree have counted so many failures of each item. -/
def Counts (counts : κ → Nat) : Limiter κ → Prop
  | exponential backoff => ∀ item, backoff.failures.count item = counts item
  | bucket _ => True
  | longest limiters => AllCount counts limiters

def AllCount (counts : κ → Nat) : List (Limiter κ) → Prop
  | [] => True
  | limiter :: rest => Counts counts limiter ∧ AllCount counts rest

end

/-- The counts after one more failure of an item. -/
def bumped (counts : κ → Nat) (item : κ) : κ → Nat := fun other =>
  if other = item then min (counts item + 1) Tally.ceiling else counts other

/-- The counts after the failures of an item are forgotten. -/
def cleared (counts : κ → Nat) (item : κ) : κ → Nat := fun other =>
  if other = item then 0 else counts other

variable {counts : κ → Nat} {now : Nat} {item : κ}

mutual

theorem Counts.backOff {limiter : Limiter κ} (agrees : limiter.Counts counts) :
    (limiter.backOff now item).2.Counts (bumped counts item) := by
  cases limiter with
  | exponential backoff =>
      intro other
      simp only [Tally.count_bump, bumped]
      rw [agrees item, agrees other]
  | bucket held => trivial
  | longest limiters => exact AllCount.backOffAll agrees

theorem AllCount.backOffAll {limiters : List (Limiter κ)} (agree : AllCount counts limiters) :
    AllCount (bumped counts item) (Limiter.backOffAll now item limiters).2 := by
  cases limiters with
  | nil => trivial
  | cons limiter rest => exact ⟨agree.1.backOff, AllCount.backOffAll agree.2⟩

end

mutual

theorem Counts.forget {limiter : Limiter κ} (agrees : limiter.Counts counts) :
    (limiter.forget item).Counts (cleared counts item) := by
  cases limiter with
  | exponential backoff =>
      intro other
      simp only [Backoff.forget, Tally.count_clear, cleared]
      rw [agrees other]
  | bucket held => trivial
  | longest limiters => exact AllCount.forgetAll agrees

theorem AllCount.forgetAll {limiters : List (Limiter κ)} (agree : AllCount counts limiters) :
    AllCount (cleared counts item) (Limiter.forgetAll item limiters) := by
  cases limiters with
  | nil => trivial
  | cons limiter rest => exact ⟨agree.1.forget, AllCount.forgetAll agree.2⟩

end

mutual

theorem Counts.requeues_le {limiter : Limiter κ} (agrees : limiter.Counts counts) :
    limiter.requeues item ≤ counts item := by
  cases limiter with
  | exponential backoff => exact Nat.le_of_eq (agrees item)
  | bucket held => exact Nat.zero_le _
  | longest limiters => exact AllCount.requeuesAll_le agrees

theorem AllCount.requeuesAll_le {limiters : List (Limiter κ)} (agree : AllCount counts limiters) :
    Limiter.requeuesAll item limiters ≤ counts item := by
  cases limiters with
  | nil => exact Nat.zero_le _
  | cons limiter rest => exact Nat.max_le.mpr ⟨agree.1.requeues_le, AllCount.requeuesAll_le agree.2⟩

end

mutual

theorem Counts.le_requeues {limiter : Limiter κ} (agrees : limiter.Counts counts)
    (counting : limiter.HasBackoff) : counts item ≤ limiter.requeues item := by
  cases limiter with
  | exponential backoff => exact Nat.le_of_eq (agrees item).symm
  | bucket held => exact counting.elim
  | longest limiters => exact AllCount.le_requeuesAll agrees counting

theorem AllCount.le_requeuesAll {limiters : List (Limiter κ)} (agree : AllCount counts limiters)
    (counting : AnyHasBackoff limiters) : counts item ≤ Limiter.requeuesAll item limiters := by
  cases limiters with
  | nil => exact counting.elim
  | cons limiter rest =>
      rcases counting with here | later
      · exact Nat.le_trans (agree.1.le_requeues here) (Nat.le_max_left _ _)
      · exact Nat.le_trans (AllCount.le_requeuesAll agree.2 later) (Nat.le_max_right _ _)

end

theorem Counts.requeues_eq {limiter : Limiter κ} (agrees : limiter.Counts counts)
    (counting : limiter.HasBackoff) (item : κ) : limiter.requeues item = counts item :=
  Nat.le_antisymm agrees.requeues_le (agrees.le_requeues counting)

mutual

theorem hasBackoff_backOff {limiter : Limiter κ} :
    (limiter.backOff now item).2.HasBackoff ↔ limiter.HasBackoff := by
  cases limiter with
  | exponential backoff => exact Iff.rfl
  | bucket held => exact Iff.rfl
  | longest limiters => exact anyHasBackoff_backOffAll

theorem anyHasBackoff_backOffAll {limiters : List (Limiter κ)} :
    AnyHasBackoff (backOffAll now item limiters).2 ↔ AnyHasBackoff limiters := by
  cases limiters with
  | nil => exact Iff.rfl
  | cons limiter rest => exact or_congr hasBackoff_backOff anyHasBackoff_backOffAll

end

mutual

theorem hasBackoff_forget {limiter : Limiter κ} :
    (limiter.forget item).HasBackoff ↔ limiter.HasBackoff := by
  cases limiter with
  | exponential backoff => exact Iff.rfl
  | bucket held => exact Iff.rfl
  | longest limiters => exact anyHasBackoff_forgetAll

theorem anyHasBackoff_forgetAll {limiters : List (Limiter κ)} :
    AnyHasBackoff (forgetAll item limiters) ↔ AnyHasBackoff limiters := by
  cases limiters with
  | nil => exact Iff.rfl
  | cons limiter rest => exact or_congr hasBackoff_forget anyHasBackoff_forgetAll

end

mutual

theorem backOff_le_cap (limiter : Limiter κ) : (limiter.backOff now item).1 ≤ limiter.cap := by
  cases limiter with
  | exponential backoff => exact backoff.delay_le_limit _
  | bucket held => exact held.take_le now
  | longest limiters => exact backOffAll_le_capAll limiters

theorem backOffAll_le_capAll (limiters : List (Limiter κ)) :
    (backOffAll now item limiters).1 ≤ capAll limiters := by
  cases limiters with
  | nil => exact Nat.le_refl _
  | cons limiter rest =>
      have first := backOff_le_cap limiter
      have others := backOffAll_le_capAll rest
      simp only [backOffAll, capAll]
      omega

end

mutual

@[simp] theorem cap_backOff (limiter : Limiter κ) :
    (limiter.backOff now item).2.cap = limiter.cap := by
  cases limiter with
  | exponential backoff => rfl
  | bucket held => rfl
  | longest limiters => exact capAll_backOffAll limiters

theorem capAll_backOffAll (limiters : List (Limiter κ)) :
    capAll (backOffAll now item limiters).2 = capAll limiters := by
  cases limiters with
  | nil => rfl
  | cons limiter rest =>
      simp only [backOffAll, capAll]
      rw [cap_backOff limiter, capAll_backOffAll rest]

end

mutual

@[simp] theorem cap_forget (limiter : Limiter κ) : (limiter.forget item).cap = limiter.cap := by
  cases limiter with
  | exponential backoff => rfl
  | bucket held => rfl
  | longest limiters => exact capAll_forgetAll limiters

theorem capAll_forgetAll (limiters : List (Limiter κ)) :
    capAll (forgetAll item limiters) = capAll limiters := by
  cases limiters with
  | nil => rfl
  | cons limiter rest =>
      simp only [forgetAll, capAll]
      rw [cap_forget limiter, capAll_forgetAll rest]

end

end ReconcileLoop.Limiter
