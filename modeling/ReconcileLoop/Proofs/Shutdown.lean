import ReconcileLoop.Proofs.Closing
import ReconcileLoop.Proofs.Run

namespace ReconcileLoop

/-! # A shutdown is final and complete

`Closing.final_of_reachable` says of a queue that nothing comes of it any more once it was shut down.
Here it is said of a run: out of a queue that is down workers take no key, and by the time the run
has finished all of them have stopped, after they released what they had in hand
(`Run.Kept.finished`).
-/

namespace Alternates

variable {key : Key} {log newer : List Handover}

theorem unique {holder other : Option Nat} (one : Alternates key log holder)
    (another : Alternates key log other) : holder = other := by
  induction one generalizing other with
  | empty =>
      cases another
      rfl
  | other differs _ ih =>
      cases another with
      | other _ earlier => exact ih earlier
      | got _ => exact absurd rfl differs
      | released _ => exact absurd rfl differs
  | got _ _ =>
      cases another with
      | other differs _ => exact absurd rfl differs
      | got _ => rfl
  | released _ _ =>
      cases another with
      | other differs _ => exact absurd rfl differs
      | released _ => rfl

/-- Whoever has a key has it until it releases it. -/
theorem holder_of_unreleased {place : Nat} {holder : Option Nat}
    (held : Alternates key log (some place)) (later : Alternates key (newer ++ log) holder)
    (unreleased : .released place key ∉ newer) : holder = some place := by
  induction newer generalizing holder with
  | nil => exact later.unique held
  | cons handover rest ih =>
      have before : .released place key ∉ rest :=
        fun member => unreleased (List.mem_cons_of_mem _ member)
      cases later with
      | other _ earlier => exact ih earlier before
      | got earlier => exact absurd (ih earlier before) (by simp)
      | @released elsewhere _ earlier =>
          obtain rfl := Option.some.inj (ih earlier before)
          exact absurd (List.mem_cons_self ..) unreleased

end Alternates

namespace Run

variable {α σ ι : Type} [DecidableEq ι] {Δ : ι → Type} [Primary α σ] [∀ kind, Resource (Δ kind)]
  {plan : Plan ι} {run later : Run α Δ}

/-- The log only grows, and once the queue is down by releases alone. -/
theorem Step.log {after : Run α Δ} (stepped : Step plan run after) :
    (run.crew.queue.isDown = true → after.crew.queue.isDown = true) ∧
      ∃ newer, after.crew.log = newer ++ run.crew.log ∧
        (run.crew.queue.isDown = true → ∀ handover ∈ newer, handover.IsRelease) := by
  have still : ∃ newer, run.crew.log = newer ++ run.crew.log ∧
      (run.crew.queue.isDown = true → ∀ handover ∈ newer, handover.IsRelease) :=
    ⟨[], rfl, by simp⟩
  cases stepped with
  | primary _ => exact ⟨(Route.goesOn_foldl run.crew.queue _).down, still⟩
  | dependent kind _ => exact ⟨(Route.goesOn_foldl run.crew.queue _).down, still⟩
  | @crew after stepped =>
      refine ⟨fun down => (stepped.of_down down).1, ?_⟩
      rcases stepped.log with log | ⟨handover, log, _⟩
      · exact ⟨[], log, by simp⟩
      · refine ⟨[handover], log, fun down => ?_⟩
        rcases (stepped.of_down down).2 with same | ⟨place, key, released⟩
        · exact absurd (log.symm.trans same) (by simp)
        · obtain ⟨rfl, -⟩ := List.cons.inj (log.symm.trans released)
          simp [Handover.IsRelease]
  | stop _ _ => exact ⟨(WorkQueue.GoesOn.shutDown _).down, still⟩
  | shutDown => exact ⟨id, still⟩
  | begin _ => exact ⟨id, still⟩
  | await _ _ => exact ⟨id, still⟩
  | launch _ _ => exact ⟨id, still⟩
  | abort _ _ => exact ⟨id, still⟩
  | finish _ _ => exact ⟨id, still⟩

theorem log_of_steps (onward : Relation.ReflTransGen (Step plan) run later) :
    (run.crew.queue.isDown = true → later.crew.queue.isDown = true) ∧
      ∃ newer, later.crew.log = newer ++ run.crew.log ∧
        (run.crew.queue.isDown = true → ∀ handover ∈ newer, handover.IsRelease) := by
  induction onward with
  | refl => exact ⟨id, [], rfl, by simp⟩
  | tail _ stepped ih =>
      obtain ⟨down, newer, log, released⟩ := ih
      obtain ⟨still, newest, grown, more⟩ := stepped.log
      refine ⟨still ∘ down, newest ++ newer, ?_, fun was handover member => ?_⟩
      · rw [grown, log, List.append_assoc]
      · rcases List.mem_append.mp member with new | old
        · exact more (down was) handover new
        · exact released was handover old

theorem Reachable.steps (reachable : Reachable plan run)
    (onward : Relation.ReflTransGen (Step plan) run later) : Reachable plan later := by
  induction onward with
  | refl => exact reachable
  | tail _ stepped ih => exact .step ih stepped

omit [DecidableEq ι] [∀ kind, Resource (Δ kind)] in
/-- By the time a run has finished nobody has a key any more. -/
theorem Kept.finished (kept : run.Kept plan) {result : Except String Unit}
    (finished : run.phase = .finished result) :
    (∀ place, run.crew.held? place = none) ∧ run.crew.queue.shared.queue.processing = [] ∧
      ∀ key, Alternates key run.crew.log none := by
  have nobody (place : Nat) : run.crew.held? place = none := by
    cases there : run.crew.members[place]? with
    | none => simp [Crew.held?, there]
    | some member =>
        simp [Crew.held?, there, kept.stopped finished member (List.mem_of_getElem? there),
          Worker.held?, Worker.key?]
  refine ⟨nobody, List.eq_nil_iff_forall_not_mem.mpr fun key held => ?_, fun key => ?_⟩
  · obtain ⟨place, holds⟩ := (kept.orderly.held key).mp held
    simp [nobody] at holds
  · obtain ⟨holder, alternates, holds⟩ := kept.orderly.logged key
    cases holder with
    | none => exact alternates
    | some place => exact absurd ((holds place).mp rfl) (by simp [nobody])

omit [DecidableEq ι] [∀ kind, Resource (Δ kind)] in
/-- What a worker has in hand at some time it has released by the time the run has finished. -/
theorem Kept.released (kept : run.Kept plan) (afterwards : later.Kept plan)
    {newer : List Handover} (log : later.crew.log = newer ++ run.crew.log)
    {result : Except String Unit} (finished : later.phase = .finished result) {place : Nat}
    {key : Key} (holds : run.crew.held? place = some key) : .released place key ∈ newer := by
  obtain ⟨holder, alternates, who⟩ := kept.orderly.logged key
  have last := log ▸ (afterwards.finished finished).2.2 key
  by_contra unreleased
  rw [(who place).mpr holds] at alternates
  simpa using alternates.holder_of_unreleased last unreleased

/-- Once a queue has been shut down, in whatever state that found it and whatever goes on: it stays
empty, nothing is handed out any more, everybody who gets an item is told that there is none, and of
all calls only a release has an effect, which is to release. As long as a run goes on its log only
grows, and once its queue is down by releases alone; and when it has finished all its workers have
stopped, and every key that a worker had in hand at any time before has been released by that
worker. -/
theorem shut_of_reachable :
    (∀ (κ : Type) [DecidableEq κ] (closing later : Closing κ), Closing.Reachable closing →
      closing.stage = .done → Relation.ReflTransGen Closing.Step closing later →
        later.stage = .done ∧ Closing.Final later.counter ∧
          Queue.Ledger.handedOut later.counter.ledger =
            Queue.Ledger.handedOut closing.counter.ledger ∧
          (later.counter.getters.filterMap Queue.Getter.taken?).Subperm
            (closing.counter.getters.filterMap Queue.Getter.taken?)) ∧
    ∀ (plan : Plan ι) (run later : Run α Δ), Reachable plan run →
      Relation.ReflTransGen (Step plan) run later →
        ∃ newer, later.crew.log = newer ++ run.crew.log ∧
          (run.crew.queue.isDown = true → later.crew.queue.isDown = true ∧
            ∀ handover ∈ newer, handover.IsRelease) ∧
          ∀ result, later.phase = .finished result →
            (∀ member ∈ later.crew.members, member.worker = .stopped) ∧
            later.crew.queue.shared.queue.processing = [] ∧
            (∀ key, Alternates key later.crew.log none) ∧
            ∀ place key, run.crew.held? place = some key → .released place key ∈ newer := by
  refine ⟨fun κ _ closing later reachable done onward =>
    Closing.final_of_reachable reachable done onward, fun plan run later reachable onward => ?_⟩
  have kept := Kept.of_reachable reachable
  have afterwards := Kept.of_reachable (reachable.steps onward)
  obtain ⟨down, newer, log, released⟩ := log_of_steps onward
  refine ⟨newer, log, fun was => ⟨down was, released was⟩, fun result finished => ?_⟩
  obtain ⟨_, processing, alternates⟩ := afterwards.finished finished
  exact ⟨afterwards.stopped finished, processing, alternates,
    fun place key holds => kept.released afterwards log finished holds⟩

/-- A queue is shut down while one task has an item that was added again meanwhile, another one
waits, one delay is pending and another add is about to be delayed. A run is shut down while its
only worker has a key in hand, which it releases before it stops. -/
theorem shut_of_busy :
    let key : Key := ⟨some "default", "web"⟩
    (∃ later : Closing Nat, Closing.Final later.counter ∧
      later.counter.getters = [.finished (some 7), .waiting (some 0)] ∧
      later.counter.queue.shared.queue.processing = [] ∧
      later.counter.queue.shared.queue.ready = [] ∧ later.counter.queue.delayed.length = 1) ∧
    ∃ (later : Run Service fun _ : Empty => Service) (newer : List Handover),
      later.phase = .finished (.ok ()) ∧ later.crew.log = newer ++ [.got 0 key] ∧
      .released 0 key ∈ newer ∧ ∀ handover ∈ newer, handover.IsRelease := by
  intro key
  obtain ⟨closes, stops⟩ := shut_of_reachable (α := Service) (Δ := fun _ : Empty => Service)
  constructor
  · have opened : Closing.Reachable (κ := Nat) _ := .start (.longest [])
    have taken : Closing.Reachable (κ := Nat) _ :=
      .step (.step (.step (.step opened (.work (.call (.add 7) nofun))) (.work .come))
        (.work (.get 0 rfl rfl))) (.work (.get 0 rfl rfl))
    have parked : Closing.Reachable (κ := Nat) _ := .step taken (.work (.call (.add 7) nofun))
    have waits : Closing.Reachable (κ := Nat) _ :=
      .step (.step (.step parked (.work .come)) (.work (.get 1 rfl rfl))) (.work (.get 1 rfl rfl))
    have delayed : Closing.Reachable (κ := Nat) _ :=
      .step (.step waits (.work (.call (.addAfter 8 1000000) nofun))) (.letIn 9 1000000 rfl)
    have shut : Closing.Reachable (κ := Nat) _ :=
      .step (.step (.step delayed (.empty rfl)) (.cancel rfl)) (.wake rfl)
    obtain ⟨_, final, _⟩ := closes Nat _ _ shut rfl
      (.head (.time (show _ = [] ++ (9, 1000000) :: [] from rfl))
      (.head (.work (.wait 2000000 (Nat.zero_le _)))
      (.head (.work (.elapse (show _ = [] ++ (⟨1, 8⟩ : DelayedAdd Nat) :: [⟨1, 9⟩] from rfl)
        (show Duration.ofMillis 1 ≤ 2000000 by decide)))
      (.head (.work (.call (.done 7) nofun)) .refl))))
    exact ⟨_, final, rfl, rfl, final.empty.1, rfl⟩
  · let plan : Plan Empty := ⟨"service", { workers := 1 }, []⟩
    have begun : Reachable plan (start 2048 (.longest []) : Run Service fun _ : Empty => Service) :=
      .start (.longest [])
    have first {members : List Member} {member : Member} (same : members[0]? = some member) :
        members[0]? = some member := same
    have synced := Reachable.step (.step (.step begun (.primary (.send .initDone rfl)))
      (.primary (.task _ none rfl))) (.primary (.task _ none rfl))
    have waited := Reachable.step (.step (.step synced (.begin rfl)) (.await rfl (.pass rfl rfl)))
      (.await rfl (.arrive rfl))
    have added := Reachable.step (.step waited (.launch rfl rfl)) (.crew (.add key))
    have taken := Reachable.step (.step added (.crew (.get 0 rfl rfl))) (.crew (.get 0 rfl rfl))
    have shut := Reachable.step (.step (.step taken (.crew (.begin (first rfl)))) .shutDown)
      (.stop rfl rfl)
    obtain ⟨newer, log, down, finished⟩ := stops plan _ _ shut
      (.head (.crew (.pass (.ok ()) (first rfl)))
      (.head (.crew (.settle (first rfl) rfl))
      (.head (.crew (.release (first rfl)))
      (.head (.crew (.get 0 rfl rfl))
      (.head (.crew (.get 0 rfl rfl))
      (.head (.crew (.stop (first rfl)))
      (.head (.finish rfl (List.forall_mem_singleton.mpr rfl)) .refl)))))))
    exact ⟨_, newer, rfl, log, (finished _ rfl).2.2.2 0 key rfl, (down rfl).2⟩

end Run

end ReconcileLoop
