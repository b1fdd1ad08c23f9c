import ReconcileLoop.Proofs.Limiter.Counts
import ReconcileLoop.Proofs.Limiter.Doubling

namespace ReconcileLoop.Limiter

/-! # What a tree of limiters has been through

A limiter that is built from backoffs and buckets, nested to any depth, is asked and told at any
instants. If there is a backoff in it, its counts are those that `Call.failed` reads off the calls
alone, however many backoffs there are and wherever they stand; without one it counts nothing. To
forget an item concerns no other, and no delay is longer than the longest cap in the tree
(`Limiter.requeues_of_calls`).
-/

variable {κ : Type}

/-- Limiters as they are built, of any shape: nothing was asked of them yet. -/
inductive New : Limiter κ → Prop where
  | exponential (base limit : Nat) : New (.exponential { base, limit })
  | bucket (rate : Float) (burst now : Nat) : New (.bucket (.full rate burst now))
  | longest (limiters : List (Limiter κ)) (built : ∀ limiter ∈ limiters, New limiter) :
      New (.longest limiters)

/-- The limiter of a controller, whatever its settings. -/
theorem new_limiter (settings : Settings) (now : Nat) :
    (settings.limiter now : Limiter κ).New := by
  refine .longest _ fun limiter member => ?_
  simp only [List.mem_cons, List.not_mem_nil, or_false] at member
  rcases member with rfl | rfl
  · exact .exponential _ _
  · exact .bucket _ _ _

variable [DecidableEq κ]

def perform (limiter : Limiter κ) (now : Nat) : Call κ → Limiter κ
  | .backOff item => (limiter.backOff now item).2
  | .forget item => limiter.forget item

/-- A limiter after some calls, the newest of them first, each with the instant at which it was
made. -/
def after (limiter : Limiter κ) : List (Nat × Call κ) → Limiter κ
  | [] => limiter
  | (now, call) :: earlier => (after limiter earlier).perform now call

theorem allCount_iff {counts : κ → Nat} {limiters : List (Limiter κ)} :
    AllCount counts limiters ↔ ∀ limiter ∈ limiters, limiter.Counts counts := by
  induction limiters with
  | nil => simp [AllCount]
  | cons limiter rest ih => rw [AllCount, ih, List.forall_mem_cons]

theorem New.counts {limiter : Limiter κ} (new : limiter.New) : limiter.Counts fun _ => 0 := by
  induction new with
  | exponential base limit => exact fun item => Tally.count_empty item
  | bucket rate burst now => trivial
  | longest limiters built ih => exact allCount_iff.mpr ih

mutual

theorem requeues_eq_zero {limiter : Limiter κ} (uncounted : ¬limiter.HasBackoff) (item : κ) :
    limiter.requeues item = 0 := by
  cases limiter with
  | exponential backoff => exact absurd trivial uncounted
  | bucket held => rfl
  | longest limiters => exact requeuesAll_eq_zero uncounted item

theorem requeuesAll_eq_zero {limiters : List (Limiter κ)} (uncounted : ¬AnyHasBackoff limiters)
    (item : κ) : requeuesAll item limiters = 0 := by
  cases limiters with
  | nil => rfl
  | cons limiter rest =>
      obtain ⟨here, later⟩ := not_or.mp uncounted
      rw [requeuesAll, requeues_eq_zero here, requeuesAll_eq_zero later, Nat.max_self]

end

/-- The failures of an item since it was last forgotten, as far as they are counted. -/
def counted (calls : List (Nat × Call κ)) (item : κ) : Nat :=
  min (Call.failed item (calls.map Prod.snd)) Tally.ceiling

theorem bumped_counted (now : Nat) (item : κ) (earlier : List (Nat × Call κ)) :
    bumped (counted earlier) item = counted ((now, .backOff item) :: earlier) := by
  funext other
  simp only [bumped, counted, List.map_cons, Call.failed]
  split
  · next same =>
      subst same
      omega
  · rfl

theorem cleared_counted (now : Nat) (item : κ) (earlier : List (Nat × Call κ)) :
    cleared (counted earlier) item = counted ((now, .forget item) :: earlier) := by
  funext other
  simp only [cleared, counted, List.map_cons, Call.failed]
  split
  · simp
  · rfl

variable {limiter : Limiter κ} (calls : List (Nat × Call κ))

theorem New.counts_after (new : limiter.New) : (limiter.after calls).Counts (counted calls) := by
  induction calls with
  | nil =>
      have nothing : counted ([] : List (Nat × Call κ)) = fun _ => 0 := funext fun _ => rfl
      rw [nothing]
      exact new.counts
  | cons latest earlier ih =>
      obtain ⟨now, call⟩ := latest
      cases call with
      | backOff item =>
          rw [← bumped_counted]
          exact ih.backOff
      | forget item =>
          rw [← cleared_counted]
          exact ih.forget

theorem hasBackoff_after : (limiter.after calls).HasBackoff ↔ limiter.HasBackoff := by
  induction calls with
  | nil => exact Iff.rfl
  | cons latest earlier ih =>
      obtain ⟨now, call⟩ := latest
      cases call with
      | backOff item => exact hasBackoff_backOff.trans ih
      | forget item => exact hasBackoff_forget.trans ih

theorem cap_after : (limiter.after calls).cap = limiter.cap := by
  induction calls with
  | nil => rfl
  | cons latest earlier ih =>
      obtain ⟨now, call⟩ := latest
      cases call with
      | backOff item => exact (cap_backOff _).trans ih
      | forget item => exact (cap_forget _).trans ih

/-- After any calls at any instants: a limiter with a backoff somewhere in it says of each item how
often it failed since it was last forgotten, up to the ceiling, and a limiter without one says 0. To
forget an item now makes its count 0 and leaves the counts of the others. And the next delay, of
whatever item and at whatever instant, is at most the largest cap in the tree. -/
theorem requeues_of_calls (new : limiter.New) :
    let used := limiter.after calls
    (limiter.HasBackoff → ∀ item, used.requeues item =
      min (Call.failed item (calls.map Prod.snd)) Tally.ceiling) ∧
    (¬limiter.HasBackoff → ∀ item, used.requeues item = 0) ∧
    (∀ item, (used.forget item).requeues item = 0 ∧
      ∀ other, other ≠ item → (used.forget item).requeues other = used.requeues other) ∧
    ∀ now item, (used.backOff now item).1 ≤ limiter.cap := by
  intro used
  have counts : used.Counts (counted calls) := new.counts_after calls
  refine ⟨fun counting item => ?_, fun uncounted item => ?_, fun item => ?_, fun now item => ?_⟩
  · exact counts.requeues_eq ((hasBackoff_after calls).mpr counting) item
  · exact requeues_eq_zero (mt (hasBackoff_after calls).mp uncounted) item
  · have forgotten : (used.forget item).Counts (cleared (counted calls) item) := counts.forget
    have still : (used.forget item).HasBackoff ↔ used.HasBackoff := hasBackoff_forget
    by_cases counting : used.HasBackoff
    · have left := forgotten.requeues_eq (still.mpr counting)
      refine ⟨by simp [left, cleared], fun other differs => ?_⟩
      rw [left, counts.requeues_eq counting, cleared, if_neg differs]
    · have silent := requeues_eq_zero (mt still.mp counting)
      exact ⟨silent item, fun other _ => by rw [silent, requeues_eq_zero counting]⟩
  · rw [← cap_after calls]
    exact backOff_le_cap used

/-- The limiter of a controller next to a faster backoff: an item that was forgotten and failed
again, and one that failed twice. -/
theorem requeues_of_calls_nested :
    let limiter : Limiter Nat := .longest
      [.longest [], Settings.limiter {} 0, .exponential { base := 1, limit := 8 }]
    let used := limiter.after
      [(5, .backOff 7), (4, .forget 7), (3, .backOff 3), (2, .backOff 7), (1, .backOff 3)]
    used.requeues 7 = 1 ∧ used.requeues 3 = 2 ∧ (used.forget 3).requeues 7 = 1 ∧
      (used.backOff 6 3).1 ≤ Duration.ofSeconds 1000 := by
  intro limiter used
  have new : limiter.New := by
    refine .longest _ fun inner member => ?_
    simp only [List.mem_cons, List.not_mem_nil, or_false] at member
    rcases member with rfl | rfl | rfl
    · exact .longest [] (by simp)
    · exact new_limiter {} 0
    · exact .exponential 1 8
  have counting : limiter.HasBackoff := .inr (.inl (.inl trivial))
  obtain ⟨counts, _, forgets, bound⟩ := requeues_of_calls
    [(5, .backOff 7), (4, .forget 7), (3, .backOff 3), (2, .backOff 7), (1, .backOff 3)] new
  have first := counts counting 7
  have second := counts counting 3
  refine ⟨first, second, ((forgets 3).2 7 (by decide)).trans first, ?_⟩
  exact Nat.le_trans (bound 6 3) (by decide)

end ReconcileLoop.Limiter
