import Mathlib.Data.List.Forall2
import Mathlib.Logic.Relation
import ReconcileLoop.Cache.Ingest

namespace ReconcileLoop

/-! # Waiting for caches to sync

Whoever waits for caches looks at their signals one after the other, and while it waits for one of
them all the others may change. `Waiter` is how far it has come and `Waiter.Step` what it does next.
Signals are set once and for all, and a task that has ended sets none (`SyncSignal.Onward`); so what
a waiter has found out stays true (`Waiter.Right`). If nothing else moves, a waiter comes to what
`awaitSync` says at once.
-/

namespace SyncSignal

/-- What may become of a signal. -/
structure Onward (before after : SyncSignal) : Prop where
  synced (synced : before.synced = true) : after.synced = true
  ended (ended : before.ended = true) : after = before

theorem Onward.refl (signal : SyncSignal) : signal.Onward signal := ⟨id, fun _ => rfl⟩

/-- Whether a signal will never be set. -/
def Lost (signal : SyncSignal) : Prop := signal.synced = false ∧ signal.ended = true

theorem Onward.lost {before after : SyncSignal} (onward : before.Onward after)
    (lost : before.Lost) : after.Lost := by
  rw [onward.ended lost.2]
  exact lost

end SyncSignal

/-- Where a task stands that waits for signals, one after the other. -/
inductive Waiter where
  /-- About to look at the signal at a place. -/
  | looking (place : Nat)
  /-- Found that the signal at a place was not set. -/
  | waiting (place : Nat)
  | finished (synced : Bool)
deriving DecidableEq, Repr, Inhabited

namespace Waiter

/-- The next step of a waiter. Which of a shutdown and a change of the signal wakes it first is left
open. -/
inductive Step (shutdown : Bool) (signals : List SyncSignal) : Waiter → Waiter → Prop where
  | pass {place : Nat} {signal : SyncSignal} (there : signals[place]? = some signal)
      (synced : signal.synced = true) : Step shutdown signals (looking place) (looking (place + 1))
  | wait {place : Nat} {signal : SyncSignal} (there : signals[place]? = some signal)
      (unsynced : signal.synced = false) : Step shutdown signals (looking place) (waiting place)
  | arrive {place : Nat} (beyond : signals[place]? = none) :
      Step shutdown signals (looking place) (finished true)
  | wake {place : Nat} {signal : SyncSignal} (there : signals[place]? = some signal)
      (synced : signal.synced = true) : Step shutdown signals (waiting place) (looking place)
  | giveUp {place : Nat} {signal : SyncSignal} (there : signals[place]? = some signal)
      (lost : signal.Lost) : Step shutdown signals (waiting place) (finished false)
  | cancel {place : Nat} (down : shutdown = true) :
      Step shutdown signals (waiting place) (finished false)

/-- What a waiter has found out so far. -/
def Right (shutdown : Bool) (signals : List SyncSignal) : Waiter → Prop
  | looking place => ∀ signal ∈ signals.take place, signal.synced = true
  | waiting place => ∀ signal ∈ signals.take place, signal.synced = true
  | finished true => ∀ signal ∈ signals, signal.synced = true
  | finished false => shutdown = true ∨ ∃ signal ∈ signals, signal.Lost

variable {shutdown : Bool} {signals : List SyncSignal} {waiter next : Waiter}

theorem Right.step (right : waiter.Right shutdown signals)
    (stepped : Step shutdown signals waiter next) : next.Right shutdown signals := by
  cases stepped with
  | @pass place signal there synced =>
      intro other member
      rw [List.take_add_one, there, List.mem_append] at member
      rcases member with before | here
      · exact right other before
      · rw [Option.toList_some, List.mem_singleton] at here
        exact here ▸ synced
  | wait there unsynced => exact right
  | @arrive place beyond =>
      intro signal member
      rw [← List.take_of_length_le (List.getElem?_eq_none_iff.mp beyond)] at member
      exact right signal member
  | wake there synced => exact right
  | giveUp there lost => exact .inr ⟨_, List.mem_of_getElem? there, lost⟩
  | cancel down => exact .inl down

/-- What a waiter has found out stays true while the signals go on and nobody takes a shutdown
back. -/
theorem Right.onward {later : List SyncSignal} {laterShutdown : Bool}
    (right : waiter.Right shutdown signals) (onward : List.Forall₂ SyncSignal.Onward signals later)
    (down : shutdown = true → laterShutdown = true) : waiter.Right laterShutdown later := by
  have synced {before after : List SyncSignal} (onward : List.Forall₂ SyncSignal.Onward before after)
      (all : ∀ signal ∈ before, signal.synced = true) : ∀ signal ∈ after, signal.synced = true := by
    induction onward with
    | nil => simp
    | cons first _ ih =>
        obtain ⟨head, tail⟩ := List.forall_mem_cons.mp all
        exact List.forall_mem_cons.mpr ⟨first.synced head, ih tail⟩
  have lost {before after : List SyncSignal} (onward : List.Forall₂ SyncSignal.Onward before after)
      (one : ∃ signal ∈ before, signal.Lost) : ∃ signal ∈ after, signal.Lost := by
    induction onward with
    | nil => simp at one
    | cons first _ ih =>
        rw [List.exists_mem_cons_iff] at one ⊢
        exact one.imp first.lost ih
  cases waiter with
  | looking place => exact synced (List.forall₂_take place onward) right
  | waiting place => exact synced (List.forall₂_take place onward) right
  | finished result =>
      cases result with
      | true => exact synced onward right
      | false => exact right.imp down (lost onward)

end Waiter

theorem awaitSync_eq_true_iff {shutdown : Bool} {signals : List SyncSignal} :
    awaitSync shutdown signals = some true ↔ ∀ signal ∈ signals, signal.synced = true := by
  induction signals with
  | nil => simp [awaitSync]
  | cons signal rest ih =>
      rw [List.forall_mem_cons, awaitSync]
      split
      · next synced => simp [ih, synced]
      · next unsynced => split <;> simp [unsynced]

theorem awaitSync_eq_false_iff {shutdown : Bool} {signals : List SyncSignal} :
    awaitSync shutdown signals = some false ↔ ∃ early signal late,
      signals = early ++ signal :: late ∧ (∀ signal ∈ early, signal.synced = true) ∧
        signal.synced = false ∧ (signal.ended = true ∨ shutdown = true) := by
  induction signals with
  | nil => simp [awaitSync]
  | cons signal rest ih =>
      rw [awaitSync]
      split
      · next synced =>
          rw [ih]
          constructor
          · rintro ⟨early, first, late, rfl, before, found⟩
            exact ⟨signal :: early, first, late, rfl, List.forall_mem_cons.mpr ⟨synced, before⟩,
              found⟩
          · rintro ⟨early, first, late, same, before, unsynced, stops⟩
            cases early with
            | nil =>
                obtain ⟨rfl, -⟩ := List.cons.inj same
                simp [synced] at unsynced
            | cons head early =>
                obtain ⟨-, rfl⟩ := List.cons.inj same
                exact ⟨early, first, late, rfl, (List.forall_mem_cons.mp before).2, unsynced, stops⟩
      · next unsynced =>
          have first : signal.synced = false := by simpa using unsynced
          constructor
          · intro decided
            refine ⟨[], signal, rest, rfl, by simp, first, ?_⟩
            split at decided
            · next stops => exact Bool.or_eq_true_iff.mp stops
            · contradiction
          · rintro ⟨early, other, late, same, before, _, stops⟩
            cases early with
            | nil =>
                obtain ⟨rfl, -⟩ := List.cons.inj same
                exact if_pos (Bool.or_eq_true_iff.mpr stops)
            | cons head early =>
                obtain ⟨rfl, -⟩ := List.cons.inj same
                exact absurd ((List.forall_mem_cons.mp before).1) unsynced

namespace Waiter

variable {shutdown : Bool} {signals : List SyncSignal}

theorem pass_steps {place : Nat} (inside : place ≤ signals.length)
    (synced : ∀ signal ∈ signals.take place, signal.synced = true) :
    Relation.ReflTransGen (Step shutdown signals) (looking 0) (looking place) := by
  induction place with
  | zero => exact .refl
  | succ place ih =>
      have there : signals[place]? = some signals[place] := List.getElem?_eq_getElem inside
      rw [List.take_add_one, there] at synced
      have earlier := ih (Nat.le_of_succ_le inside)
        fun signal member => synced signal (List.mem_append_left _ member)
      exact earlier.tail (.pass there (synced _ (List.mem_append_right _ (by simp))))

/-- If nothing else moves, a waiter comes to what `awaitSync` says at once. -/
theorem steps_of_awaitSync {result : Bool} (decided : awaitSync shutdown signals = some result) :
    Relation.ReflTransGen (Step shutdown signals) (looking 0) (finished result) := by
  cases result with
  | true =>
      have synced := awaitSync_eq_true_iff.mp decided
      have passed : Relation.ReflTransGen (Step shutdown signals) _ (looking signals.length) :=
        pass_steps (Nat.le_refl _) (by simpa using synced)
      exact passed.tail (.arrive (by simp))
  | false =>
      obtain ⟨early, signal, late, rfl, synced, unsynced, stops⟩ := awaitSync_eq_false_iff.mp decided
      have there : (early ++ signal :: late)[early.length]? = some signal := by simp
      have passed : Relation.ReflTransGen (Step shutdown (early ++ signal :: late)) _
          (looking early.length) := pass_steps (by simp) (by simpa using synced)
      refine (passed.tail (.wait there unsynced)).tail ?_
      rcases stops with ended | down
      · exact .giveUp there ⟨unsynced, ended⟩
      · exact .cancel down

theorem Right.steps {waiter next : Waiter} (right : waiter.Right shutdown signals)
    (steps : Relation.ReflTransGen (Step shutdown signals) waiter next) :
    next.Right shutdown signals := by
  induction steps with
  | refl => exact right
  | tail _ stepped ih => exact ih.step stepped

theorem right_of_awaitSync {result : Bool} (decided : awaitSync shutdown signals = some result) :
    (finished result).Right shutdown signals := by
  have nothing : (looking 0).Right shutdown signals := by simp [Right]
  exact nothing.steps (steps_of_awaitSync decided)

end Waiter

end ReconcileLoop
