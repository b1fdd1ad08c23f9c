import ReconcileLoop.Controller.Basic
import ReconcileLoop.Proofs.Cache.Initial
import ReconcileLoop.Proofs.Cache.Waiting
import ReconcileLoop.Proofs.Handovers

namespace ReconcileLoop

/-! # A controller from its start to its end

`Run` is all that takes part in the run of a controller: the caches of the primaries and of any
number of kinds of dependents, a crew, somebody who waits for the caches, and a shutdown that may come
at any time. Its caches receive deltas, sync, and lose their watches in any order, and all notifications go
through the router. Workers are there only once everybody has synced, and then everything that the
cache of the primaries was shown initially has gone through the router (`Run.ready_of_reachable`).
-/

/-- What is chosen about a run. -/
structure Plan (ι : Type) where
  name : String
  settings : Settings
  /-- The kinds of dependents, in the order in which they are waited for. -/
  kinds : List ι

/-- A run over primaries of one type and dependents of a family of types. -/
structure Run (α : Type) {ι : Type} (Δ : ι → Type) where
  primary : Chronicle α
  dependents : (kind : ι) → Chronicle (Δ kind)
  crew : Crew
  phase : Phase := .built
  waiter : Waiter := .looking 0
  shutdown : Bool := false

namespace Chronicle

variable {α : Type} {before after : Chronicle α}

/-- What was handed on between two states of a cache. -/
def news (before after : Chronicle α) : List (Notification α) :=
  (after.handed.drop before.handed.length).map Prod.fst

variable [Resource α]

theorem Step.handed (stepped : Step before after) :
    after.handed.map Prod.fst = before.handed.map Prod.fst ++ before.news after := by
  suffices more : ∃ calls, after.handed = before.handed ++ calls by
    obtain ⟨calls, same⟩ := more
    simp [news, same]
  cases stepped with
  | send delta sending => exact ⟨[], (List.append_nil _).symm⟩
  | close => exact ⟨[], (List.append_nil _).symm⟩
  | task next note? moved => exact ⟨_, rfl⟩

/-- A cache that has synced stays so, and one whose task has ended never syncs. -/
theorem Step.onward (stepped : Step before after) :
    before.ingest.signal.Onward after.ingest.signal := by
  refine ⟨stepped.synced, fun ended => ?_⟩
  cases stepped with
  | send delta sending => rfl
  | close => rfl
  | task next note? moved =>
      have still : before.ingest.hasEnded = true := ended
      unfold Ingest.hasEnded at still
      unfold Ingest.step? at moved
      split at still
      · next stage => simp [stage] at moved
      · contradiction

end Chronicle

namespace Route

variable {α σ : Type} [Primary α σ]

theorem keepsHeld_foldl (queue : WorkQueue Key) (signals : List (Signal α)) :
    queue.KeepsHeld (signals.foldl route queue) := by
  induction signals generalizing queue with
  | nil => exact .of_queue rfl
  | cons signal rest ih =>
      refine .trans ?_ (ih (route queue signal))
      unfold route
      split
      · exact .add queue _
      · exact .of_queue rfl

theorem goesOn_foldl (queue : WorkQueue Key) (signals : List (Signal α)) :
    queue.GoesOn (signals.foldl route queue) := by
  induction signals generalizing queue with
  | nil => exact .of_queue rfl
  | cons signal rest ih =>
      refine .trans ?_ (ih (route queue signal))
      unfold route
      split
      · exact .of_retains (.add queue _)
      · exact .of_queue rfl

theorem minds_foldl (queue : WorkQueue Key) {signals : List (Signal α)} {signal : Signal α}
    {key : Key} (member : signal ∈ signals) (leads : key? signal = some key) :
    (signals.foldl route queue).Minds key := by
  obtain ⟨early, late, rfl⟩ := List.append_of_mem member
  rw [List.foldl_append, List.foldl_cons]
  refine (goesOn_foldl _ late).minds key ?_
  rw [route, leads]
  cases down : (early.foldl route queue).shared.queue.down with
  | true => exact .inl ((Queue.down_add _ key).trans down)
  | false => exact .inr ((Queue.mem_dirty_add down).mpr (.inl rfl))

end Route

/-- A crew after signals have gone through the router. -/
def Crew.routes {α σ : Type} [Primary α σ] (crew : Crew) (signals : List (Signal α)) : Crew :=
  { crew with queue := signals.foldl Route.route crew.queue }

namespace Run

variable {α σ ι : Type} [DecidableEq ι] {Δ : ι → Type}

def start (capacity : Nat) (limiter : Limiter Key) : Run α Δ where
  primary := .start capacity
  dependents := fun _ => .start capacity
  crew := { queue := { limiter }, members := [] }

omit [DecidableEq ι] in
/-- What can be seen of the caches by somebody who waits for them, dependents first. -/
def signals (run : Run α Δ) (kinds : List ι) : List SyncSignal :=
  kinds.map (fun kind => (run.dependents kind).ingest.signal) ++ [run.primary.ingest.signal]

variable [Primary α σ] [∀ kind, Resource (Δ kind)]

omit [DecidableEq ι] [∀ kind, Resource (Δ kind)] in
/-- The keys that the router made of what it was told about primaries. -/
def routed (run : Run α Δ) : List Key :=
  (run.primary.handed.map Prod.fst).filterMap fun note => Route.key? (.primary note)

/-- The atomic steps of a run, and of all that goes on around it. -/
inductive Step (plan : Plan ι) (run : Run α Δ) : Run α Δ → Prop where
  | primary {after : Chronicle α} (stepped : run.primary.Step after) :
      Step plan run
        { run with
          primary := after
          crew := run.crew.routes ((run.primary.news after).map .primary) }
  | dependent (kind : ι) {after : Chronicle (Δ kind)} (stepped : (run.dependents kind).Step after) :
      Step plan run
        { run with
          dependents := Function.update run.dependents kind after
          crew := run.crew.routes (((run.dependents kind).news after).map fun note =>
            (.dependent (.of note) (Resource.metadata note.object) : Signal α)) }
  | crew {after : Crew} (stepped : Crew.Step plan.settings.maxRetries run.crew after) :
      Step plan run { run with crew := after }
  | shutDown : Step plan run { run with shutdown := true }
  | begin (built : run.phase = .built) : Step plan run { run with phase := .waiting }
  | await {next : Waiter} (waiting : run.phase = .waiting)
      (stepped : run.waiter.Step run.shutdown (run.signals plan.kinds) next) :
      Step plan run { run with waiter := next }
  | launch (waiting : run.phase = .waiting) (synced : run.waiter = .finished true) :
      Step plan run
        { run with
          phase := .running
          crew := { run.crew with
            members := List.replicate (max plan.settings.workers 1) { worker := .getting .fresh } } }
  | abort (waiting : run.phase = .waiting) (unsynced : run.waiter = .finished false) :
      Step plan run
        { run with
          phase := .finished
            (if run.shutdown then .ok ()
            else .error (plan.name ++ ": caches closed before syncing")) }
  | stop (running : run.phase = .running) (asked : run.shutdown = true) :
      Step plan run
        { run with
          phase := .stopping
          crew := { run.crew with queue := run.crew.queue.shutDown } }
  /-- All workers have been waited for. -/
  | finish (stopping : run.phase = .stopping)
      (stopped : ∀ member ∈ run.crew.members, member.worker = .stopped) :
      Step plan run { run with phase := .finished (.ok ()) }

inductive Reachable (plan : Plan ι) : Run α Δ → Prop where
  | start (limiter : Limiter Key) : Reachable plan (start plan.settings.ingestCapacity limiter)
  | step {run after : Run α Δ} (earlier : Reachable plan run) (stepped : Step plan run after) :
      Reachable plan after

omit [DecidableEq ι] [Primary α σ] [∀ kind, Resource (Δ kind)] in
theorem signals_onward {run after : Run α Δ} (kinds : List ι)
    (dependents : ∀ kind, (run.dependents kind).ingest.signal.Onward
      (after.dependents kind).ingest.signal)
    (primary : run.primary.ingest.signal.Onward after.primary.ingest.signal) :
    List.Forall₂ SyncSignal.Onward (run.signals kinds) (after.signals kinds) := by
  refine List.rel_append ?_ (.cons primary .nil)
  rw [List.forall₂_map_left_iff, List.forall₂_map_right_iff, List.forall₂_same]
  exact fun kind _ => dependents kind

/-- Signals are set once and for all, and a shutdown is not taken back. -/
theorem Step.onward {plan : Plan ι} {run after : Run α Δ} (stepped : Step plan run after)
    (kinds : List ι) :
    List.Forall₂ SyncSignal.Onward (run.signals kinds) (after.signals kinds) ∧
      (run.shutdown = true → after.shutdown = true) := by
  have still : List.Forall₂ SyncSignal.Onward (run.signals kinds) (run.signals kinds) :=
    signals_onward kinds (fun _ => .refl _) (.refl _)
  cases stepped with
  | primary stepped => exact ⟨signals_onward kinds (fun _ => .refl _) stepped.onward, id⟩
  | dependent kind stepped =>
      refine ⟨signals_onward kinds (fun other => ?_) (.refl _), id⟩
      by_cases same : other = kind
      · subst same
        simpa using stepped.onward
      · simpa [same] using SyncSignal.Onward.refl _
  | shutDown => exact ⟨still, fun _ => rfl⟩
  | crew _ => exact ⟨still, id⟩
  | begin _ => exact ⟨still, id⟩
  | await _ _ => exact ⟨still, id⟩
  | launch _ _ => exact ⟨still, id⟩
  | abort _ _ => exact ⟨still, id⟩
  | stop _ _ => exact ⟨still, id⟩
  | finish _ _ => exact ⟨still, id⟩

/-- What every state of a run goes by. -/
structure Kept (plan : Plan ι) (run : Run α Δ) : Prop where
  told : run.primary.Kept
  orderly : run.crew.Orderly
  routed : ∀ key ∈ run.routed, run.crew.queue.Minds key ∨ ∃ place, .got place key ∈ run.crew.log
  waiter : run.waiter.Right run.shutdown (run.signals plan.kinds)
  early (early : run.phase = .built ∨ run.phase = .waiting) : run.crew.members = []
  bare (nobody : run.crew.members = []) : run.crew.log = []
  synced (somebody : run.crew.members ≠ []) :
    (Waiter.finished true).Right run.shutdown (run.signals plan.kinds)
  stopped {result : Except String Unit} (finished : run.phase = .finished result) :
    ∀ member ∈ run.crew.members, member.worker = .stopped

namespace Kept

variable {plan : Plan ι} {run after : Run α Δ}

omit [DecidableEq ι] [∀ kind, Resource (Δ kind)] in
theorem start (limiter : Limiter Key) :
    Kept plan (start plan.settings.ingestCapacity limiter : Run α Δ) where
  told := .of_reachable (.start _)
  orderly := .start limiter 0
  routed := by simp [Run.start, Run.routed, Chronicle.start]
  waiter := by simp [Run.start, Waiter.Right]
  early := fun _ => rfl
  bare := fun _ => rfl
  synced := by simp [Run.start]
  stopped := by simp [Run.start]

/-- Nobody moves but the caches, the router and whoever shuts down. -/
theorem watch (kept : run.Kept plan) (stepped : Step plan run after) (told : after.primary.Kept)
    {signals : List (Signal α)} (crew : after.crew = run.crew.routes signals)
    (phase : after.phase = run.phase) (waiter : after.waiter = run.waiter)
    (routed : ∀ key ∈ after.routed, key ∈ run.routed ∨ after.crew.queue.Minds key) :
    after.Kept plan := by
  obtain ⟨onward, down⟩ := stepped.onward plan.kinds
  have members : after.crew.members = run.crew.members := by rw [crew]; rfl
  have log : after.crew.log = run.crew.log := by rw [crew]; rfl
  have hands : after.crew.held? = run.crew.held? := by rw [crew]; rfl
  refine ⟨told, kept.orderly.frame ?_ hands log, fun key leads => ?_, ?_, ?_, ?_, ?_, ?_⟩
  · rw [crew]
    exact Route.keepsHeld_foldl _ signals
  · rcases routed key leads with before | now
    · rw [log]
      refine (kept.routed key before).imp (fun minds => ?_) id
      rw [crew]
      exact (Route.goesOn_foldl _ signals).minds key minds
    · exact .inl now
  · rw [waiter]
    exact kept.waiter.onward onward down
  · rw [phase, members]
    exact kept.early
  · rw [members, log]
    exact kept.bare
  · rw [members]
    exact fun somebody => (kept.synced somebody).onward onward down
  · intro result
    rw [phase, members]
    exact kept.stopped

theorem primary (kept : run.Kept plan) {after : Chronicle α} (stepped : run.primary.Step after) :
    Kept plan { run with
      primary := after, crew := run.crew.routes ((run.primary.news after).map .primary) } := by
  refine kept.watch (.primary stepped) (kept.told.step stepped) rfl rfl rfl fun key leads => ?_
  simp only [Run.routed, stepped.handed, List.filterMap_append, List.mem_append] at leads
  refine leads.imp id fun new => ?_
  obtain ⟨note, told, leads⟩ := List.mem_filterMap.mp new
  exact Route.minds_foldl _ (List.mem_map_of_mem told) leads

omit [DecidableEq ι] [∀ kind, Resource (Δ kind)] in
theorem crew (kept : run.Kept plan) {after : Crew}
    (stepped : Crew.Step plan.settings.maxRetries run.crew after) :
    Kept plan { run with crew := after } where
  told := kept.told
  orderly := kept.orderly.step stepped
  routed := fun key leads => stepped.minds (kept.routed key leads)
  waiter := kept.waiter
  early := fun early => by
    have nobody := congrArg List.length (kept.early early)
    exact List.eq_nil_of_length_eq_zero (stepped.length_members.trans nobody)
  bare := fun nobody => by
    have before : run.crew.members = [] := by
      have same := stepped.length_members
      rw [nobody] at same
      exact List.eq_nil_of_length_eq_zero same.symm
    rcases stepped.log with log | ⟨_, _, somebody⟩
    · exact log.trans (kept.bare before)
    · exact absurd before somebody
  synced := fun somebody => by
    refine kept.synced fun nobody => somebody ?_
    have same := stepped.length_members
    rw [nobody] at same
    exact List.eq_nil_of_length_eq_zero same
  stopped := fun finished => by
    rw [stepped.of_stopped (kept.stopped finished)]
    exact kept.stopped finished

omit [DecidableEq ι] [∀ kind, Resource (Δ kind)] in
theorem launch (kept : run.Kept plan) (waiting : run.phase = .waiting)
    (synced : run.waiter = .finished true) (workers : Nat) :
    Kept plan { run with
      phase := .running
      crew := { run.crew with
        members := List.replicate workers { worker := .getting .fresh } } } where
  told := kept.told
  orderly := by
    refine kept.orderly.frame (.of_queue rfl) ?_ rfl
    funext place
    simp only [Crew.held?, kept.early (.inr waiting), List.getElem?_replicate]
    split <;> rfl
  routed := kept.routed
  waiter := kept.waiter
  early := by simp
  bare := fun _ => kept.bare (kept.early (.inr waiting))
  synced := fun _ => synced ▸ kept.waiter
  stopped := by simp

theorem step (kept : run.Kept plan) (stepped : Step plan run after) : after.Kept plan := by
  cases stepped with
  | primary stepped => exact kept.primary stepped
  | dependent kind moved =>
      exact kept.watch (.dependent kind moved) kept.told rfl rfl rfl fun key leads => .inl leads
  | crew stepped => exact kept.crew stepped
  | shutDown =>
      have nothing : run.crew = run.crew.routes ([] : List (Signal α)) := rfl
      exact kept.watch .shutDown kept.told nothing rfl rfl fun key leads => .inl leads
  | begin built =>
      exact { kept with early := fun _ => kept.early (.inl built), stopped := by simp }
  | await waiting moved => exact { kept with waiter := kept.waiter.step moved }
  | launch waiting synced => exact kept.launch waiting synced _
  | abort waiting unsynced =>
      refine { kept with early := by simp, stopped := fun _ => ?_ }
      rw [kept.early (.inr waiting)]
      simp
  | stop running asked =>
      refine { kept with
        orderly := kept.orderly.frame (.shutDown _) rfl rfl
        routed := fun key leads => ?_
        early := by simp
        stopped := by simp }
      exact (kept.routed key leads).imp ((WorkQueue.GoesOn.shutDown _).minds key) id
  | finish stopping stopped => exact { kept with early := by simp, stopped := fun _ => stopped }

theorem of_reachable (reachable : Reachable plan run) : run.Kept plan := by
  induction reachable with
  | start limiter => exact start limiter
  | step _ stepped ih => exact ih.step stepped

end Kept

/-- While the signal of some watched kind is not set there are no workers, and no key has been taken.
Once there are workers, every named primary that its cache was shown before the first listing was
complete has gone through the router, and waits in the queue, or was taken by a worker, unless the
queue is down. Whoever waits for the caches is told that they have synced only once all have, and
that they have not only on a shutdown or if the task of a cache has ended that had not synced. So is
whoever looks at all signals at once. -/
theorem ready_of_reachable {plan : Plan ι} {run : Run α Δ} (reachable : Reachable plan run) :
    ((∃ signal ∈ run.signals plan.kinds, signal.synced = false) →
      run.crew.members = [] ∧ run.crew.log = []) ∧
    (run.crew.members ≠ [] → ∀ object key, run.primary.Initial object →
      Resource.key object = .ok key →
        key ∈ run.routed ∧
          (run.crew.queue.Minds key ∨ ∃ place, .got place key ∈ run.crew.log)) ∧
    (run.waiter = .finished true → ∀ signal ∈ run.signals plan.kinds, signal.synced = true) ∧
    (run.waiter = .finished false →
      run.shutdown = true ∨ ∃ signal ∈ run.signals plan.kinds, signal.Lost) ∧
    ∀ shutdown signals,
      (awaitSync shutdown signals = some true → ∀ signal ∈ signals, signal.synced = true) ∧
        (awaitSync shutdown signals = some false →
          shutdown = true ∨ ∃ signal ∈ signals, signal.Lost) := by
  have kept := Kept.of_reachable reachable
  have primary : run.primary.ingest.signal ∈ run.signals plan.kinds :=
    List.mem_append_right _ (List.mem_singleton_self _)
  have right := kept.waiter
  refine ⟨?_, fun somebody object key initial own => ?_, fun told => ?_, fun told => ?_,
    fun _ _ => ⟨Waiter.right_of_awaitSync, Waiter.right_of_awaitSync⟩⟩
  · rintro ⟨signal, member, unsynced⟩
    have nobody : run.crew.members = [] := by
      by_contra somebody
      simp [kept.synced somebody signal member] at unsynced
    exact ⟨nobody, kept.bare nobody⟩
  · obtain ⟨added, view, handed, about⟩ :=
      kept.told.told_of_synced (kept.synced somebody _ primary) initial own
    have leads : key ∈ run.routed := by
      refine List.mem_filterMap.mpr ⟨_, List.mem_map_of_mem handed, ?_⟩
      rw [Route.key?, about]
      rfl
    exact ⟨leads, kept.routed key leads⟩
  · rw [told] at right
    exact right
  · rw [told] at right
    exact right

/-- The cache of the one kind of dependents syncs, and its task ends before the other cache has
synced. That one lists a service, which waits in the queue by the time a worker is there. -/
theorem ready_of_listed :
    let plan : Plan Unit := ⟨"service", { workers := 1, ingestCapacity := 1 }, [()]⟩
    ∃ run : Run Service fun _ : Unit => Service, Reachable plan run ∧
      run.phase = .running ∧ (run.dependents ()).ingest.signal = ⟨true, true⟩ ∧
      run.crew.members ≠ [] ∧ ⟨none, "web"⟩ ∈ run.routed ∧
      run.crew.queue.Minds ⟨none, "web"⟩ := by
  intro plan
  let service : Service := { metadata := { name := some "web", uid := some "1" } }
  let batch : List (Delta Service) := [.init, .initApplied service, .initDone]
  let arrived : Ingest Service := { channel := { capacity := 1, buffered := batch } }
  let published := arrived.publish batch
  have notes : (({} : Index Service).apply batch).2 = [.added service] := by decide +kernel
  have stage : published.stage = .notifying [.added service] := congrArg IngestStage.notifying notes
  have begun : Reachable plan (start 1 (.longest []) : Run Service fun _ : Unit => Service) :=
    .start (.longest [])
  have listed := Reachable.step begun (.dependent () (.send .initDone rfl))
  have taken := Reachable.step listed (.dependent () (.task _ none rfl))
  have synced := Reachable.step taken (.dependent () (.task _ none rfl))
  have closed := Reachable.step synced (.dependent () .close)
  have ended := Reachable.step closed (.dependent () (.task _ none rfl))
  have told := Reachable.step (.step (.step ended (.primary (.send .init rfl)))
    (.primary (.send (.initApplied service) rfl))) (.primary (.send .initDone rfl))
  have out := Reachable.step told (.primary (.task published none rfl))
  have handing : published.step? =
      some ({ published with stage := .notifying [] }, some (.added service)) := by
    simp only [Ingest.step?, stage]
  have handed := Reachable.step out (.primary (.task _ _ handing))
  have ready := Reachable.step handed (.primary (.task _ none rfl))
  have flag : published.index.synced = true := by decide +kernel
  have waited := Reachable.step (.step (.step ready (.begin rfl))
    (.await rfl (.pass rfl rfl))) (.await rfl (.pass rfl flag))
  have launched := Reachable.step (.step waited (.await rfl (.arrive rfl))) (.launch rfl rfl)
  obtain ⟨_, routed, _⟩ := ready_of_reachable launched
  obtain ⟨leads, minds⟩ := routed (List.cons_ne_nil _ _) service ⟨none, "web"⟩
    ⟨[.init, .initApplied service], [], .initApplied service, rfl, by simp, by simp, rfl⟩ rfl
  refine ⟨_, launched, rfl, rfl, List.cons_ne_nil _ _, leads, minds.resolve_right ?_⟩
  rintro ⟨place, member⟩
  cases member

end Run

end ReconcileLoop
