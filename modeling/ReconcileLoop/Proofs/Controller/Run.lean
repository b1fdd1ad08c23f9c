import ReconcileLoop.Proofs.Controller.Crew
import ReconcileLoop.Proofs.Shutdown
import ReconcileLoop.Proofs.Watch.Relay

namespace ReconcileLoop

/-! # What a controller does is a run

A controller picks one of the steps that its tasks can make, and what it picks is a step of a run, or
some steps of it (`Controller.Shows.step`). So what holds of every run holds of every controller whose
metrics are intact.
-/

/-- A step of a pump sends a delta while the channel is open, or nothing. -/
theorem Pump.step?_channel {δ τ : Type} {next : τ → StreamItem δ × τ} {shutdown : Bool}
    {channel sent : Channel (Delta δ)} {pump after : Pump δ τ}
    (moved : pump.step? next shutdown channel = some (after, sent)) :
    sent = channel ∨ ∃ delta, channel.sending = true ∧ sent = channel.push delta ∧
      after.isFinished = false := by
  cases moves_of_step? moved with
  | @send delta waits room =>
      exact .inr ⟨delta, (Channel.ends_of_hasRoom room).1, rfl, rfl⟩
  | turnAway | stop | take | passOver | runDry => exact .inl rfl

namespace Site

variable {δ : Type} [Resource δ] {site after : Site δ} {shutdown : Bool}

/-- A step of a site is a step of its cache, or of its watch alone. -/
theorem chronicle_step? {note? : Option (Notification δ)}
    (moved : site.step? shutdown = some (after, note?)) {chronicle : Chronicle δ}
    (same : chronicle.ingest = site.ingest) :
    ∃ later, Relation.ReflGen Chronicle.Step chronicle later ∧ later.ingest = after.ingest ∧
      chronicle.news later = note?.toList := by
  have quiet : chronicle.news chronicle = [] := by simp [Chronicle.news]
  unfold step? at moved
  split at moved
  · next other pumped =>
      cases moved
      simp only [pumpStep?, Option.bind_eq_bind, Option.bind_eq_some_iff] at pumped
      obtain ⟨pump, _, ⟨next, channel⟩, stepped, put⟩ := pumped
      cases put
      rcases Pump.step?_channel stepped with rfl | ⟨delta, sending, rfl, reading⟩
      · split
        · refine ⟨_, .single .close, ?_, quiet⟩
          rw [same]
        · exact ⟨chronicle, .refl, same, quiet⟩
      · rw [reading]
        refine ⟨_, .single (.send delta (same ▸ sending)), ?_, quiet⟩
        simp [same]
  · split at moved
    · simp only [ingestStep?, Option.bind_eq_bind, Option.bind_eq_some_iff] at moved
      obtain ⟨⟨ingest, told⟩, stepped, put⟩ := moved
      cases put
      refine ⟨_, .single (.task ingest told (same ▸ stepped)), rfl, ?_⟩
      cases told <;> simp [Chronicle.news, Chronicle.record]
    · contradiction

end Site

namespace Run

variable {α σ ι : Type} [DecidableEq ι] {Δ : ι → Type} [Primary α σ] [∀ kind, Resource (Δ kind)]
  {plan : Plan ι} {run : Run α Δ}

theorem primary_steps {later : Chronicle α}
    (moves : Relation.ReflGen Chronicle.Step run.primary later) :
    Relation.ReflTransGen (Step plan) run
      { run with
        primary := later, crew := run.crew.routes ((run.primary.news later).map .primary) } := by
  cases moves with
  | refl =>
      have nothing : run.primary.news run.primary = [] := by simp [Chronicle.news]
      rw [nothing]
      exact .refl
  | single stepped => exact .single (.primary stepped)

theorem dependent_steps (kind : ι) {later : Chronicle (Δ kind)}
    (moves : Relation.ReflGen Chronicle.Step (run.dependents kind) later) :
    Relation.ReflTransGen (Step plan) run
      { run with
        dependents := Function.update run.dependents kind later
        crew := run.crew.routes (((run.dependents kind).news later).map fun note =>
          (.dependent (.of note) (Resource.metadata note.object) : Signal α)) } := by
  cases moves with
  | refl =>
      have nothing : (run.dependents kind).news (run.dependents kind) = [] := by
        simp [Chronicle.news]
      rw [nothing, Function.update_eq_self]
      exact .refl
  | single stepped => exact .single (.dependent kind stepped)

/-- A waiter may make all its steps before anything else moves. -/
theorem await_steps (waiting : run.phase = .waiting) {waiter : Waiter}
    (steps : Relation.ReflTransGen (Waiter.Step run.shutdown (run.signals plan.kinds)) run.waiter
      waiter) :
    Relation.ReflTransGen (Step plan) run { run with waiter } := by
  induction steps with
  | refl => exact .refl
  | @tail before after _ stepped ih => exact ih.tail (.await waiting stepped)

end Run

namespace Controller

variable {α σ : Type}

/-- A controller and a run are in the same state. -/
structure Shows (controller : Controller α σ) (run : Run α Manifest) : Prop where
  primary : run.primary.ingest = controller.primary.ingest
  dependents (type : BuiltIn) (watched : type ∈ controller.kinds) :
    (run.dependents type).ingest = (controller.dependents.get type).ingest
  crew : ∃ log, run.crew = controller.crew log
  phase : run.phase = controller.phase
  waiter (waiting : controller.phase = .waiting) : run.waiter = .looking 0
  shutdown : run.shutdown = controller.shutdown

/-- After a step a controller is still shown by a run, which went on to there by steps of its own. -/
def Follows (controller after : Controller α σ) [Primary α σ] (run : Run α Manifest) : Prop :=
  after.plan = controller.plan ∧ after.broken = [] ∧
    ∃ later, Relation.ReflTransGen (Run.Step controller.plan) run later ∧ after.Shows later

section Sites

variable [Primary α σ] {controller after : Controller α σ} {run : Run α Manifest}

theorem routeSignal_of_intact (intact : controller.broken = []) (signal : Signal α) :
    controller.routeSignal signal =
      ({ controller with queue := Route.route controller.queue signal }, true) := by
  cases leads : Route.key? signal with
  | some key => simp only [routeSignal, Route.route, leads, crash?_eq_none intact, addKey]
  | none => simp only [routeSignal, Route.route, leads]

/-- A step of a watch puts its site back and routes the notification, if there is one. -/
theorem watchStep?_of_intact {δ : Type} [Resource δ] {site : Site δ}
    {withSite : Controller α σ → Site δ → Controller α σ} {signal : Notification δ → Signal α}
    (moved : controller.watchStep? site withSite signal = some after)
    (intact : controller.broken = [])
    (whole : ∀ controller site, (withSite controller site).broken = controller.broken) :
    ∃ next note?, site.step? controller.shutdown = some (next, note?) ∧
      after = { withSite controller next with
        queue := (note?.toList.map signal).foldl Route.route (withSite controller next).queue } := by
  simp only [watchStep?, crash?_eq_none intact, Option.bind_eq_bind, Option.bind_eq_some_iff]
    at moved
  obtain ⟨⟨next, note?⟩, stepped, same⟩ := moved
  refine ⟨next, note?, stepped, ?_⟩
  have put : (withSite controller next).broken = [] := (whole controller next).trans intact
  cases note? with
  | none =>
      cases same
      rfl
  | some note =>
      simp only [Option.map_some, routeSignal_of_intact put] at same
      cases same
      rfl

namespace Shows

theorem worker [DecidableEq σ] (shows : controller.Shows run) (intact : controller.broken = [])
    {place : Nat} (moved : controller.workerStep? place = some after) :
    controller.Follows after run := by
  obtain ⟨log, crew⟩ := shows.crew
  obtain ⟨whole, ⟨plan, primary, dependents, phase, shutdown⟩, later, stepped⟩ :=
    crew_workerStep? moved intact log
  have kinds : after.kinds = controller.kinds := congrArg Plan.kinds plan
  refine ⟨plan, whole, { run with crew := after.crew later }, .single (.crew (crew ▸ stepped)),
    ?_, fun type watched => ?_, ⟨later, rfl⟩, ?_, fun waiting => ?_, ?_⟩
  · rw [primary]
    exact shows.primary
  · rw [dependents]
    exact shows.dependents type (kinds ▸ watched)
  · rw [phase]
    exact shows.phase
  · exact shows.waiter (phase ▸ waiting)
  · rw [shutdown]
    exact shows.shutdown

theorem primarySite (shows : controller.Shows run) (intact : controller.broken = [])
    (moved : controller.primaryStep? = some after) : controller.Follows after run := by
  obtain ⟨log, crew⟩ := shows.crew
  obtain ⟨next, note?, stepped, rfl⟩ := watchStep?_of_intact moved intact fun _ _ => rfl
  obtain ⟨later, moves, ingest, news⟩ := Site.chronicle_step? stepped shows.primary
  refine ⟨rfl, intact, _, Run.primary_steps moves, ingest, shows.dependents, ⟨log, ?_⟩,
    shows.phase, shows.waiter, shows.shutdown⟩
  rw [news, crew]
  rfl

theorem dependentSite (shows : controller.Shows run) (intact : controller.broken = [])
    {type : BuiltIn} (watched : type ∈ controller.kinds)
    (moved : controller.dependentStep? type = some after) : controller.Follows after run := by
  obtain ⟨log, crew⟩ := shows.crew
  obtain ⟨next, note?, stepped, rfl⟩ := watchStep?_of_intact moved intact fun _ _ => rfl
  obtain ⟨later, moves, ingest, news⟩ :=
    Site.chronicle_step? stepped (shows.dependents type watched)
  refine ⟨rfl, intact, _, Run.dependent_steps type moves, shows.primary, fun other known => ?_,
    ⟨log, ?_⟩, shows.phase, shows.waiter, shows.shutdown⟩
  · by_cases same : other = type
    · subst same
      simpa using ingest
    · simpa [same, PerKind.get_set_other same] using shows.dependents other known
  · rw [news, crew]
    rfl

omit [Primary α σ] in
theorem signals (shows : controller.Shows run) :
    run.signals controller.plan.kinds = controller.signals := by
  have dependents : controller.kinds.map (fun type => (run.dependents type).ingest.signal) =
      controller.kinds.map fun type => (controller.dependents.get type).ingest.signal :=
    List.map_congr_left fun type watched => by rw [shows.dependents type watched]
  unfold Run.signals Controller.signals
  rw [shows.primary]
  exact congrArg (· ++ _) dependents

omit [Primary α σ] in
theorem awaited (shows : controller.Shows run) (waiting : controller.phase = .waiting)
    {result : Bool} (decided : controller.synced? = some result) :
    Relation.ReflTransGen (Waiter.Step run.shutdown (run.signals controller.plan.kinds)) run.waiter
      (.finished result) := by
  rw [shows.waiter waiting, shows.signals, shows.shutdown]
  exact Waiter.steps_of_awaitSync decided

theorem turn (shows : controller.Shows run) (intact : controller.broken = [])
    (moved : controller.phaseStep? = some after) : controller.Follows after run := by
  obtain ⟨log, crew⟩ := shows.crew
  unfold phaseStep? at moved
  split at moved
  · next waiting =>
      have waits : run.phase = .waiting := shows.phase.trans waiting
      split at moved
      · contradiction
      · next synced =>
          cases moved
          have awaited := Run.await_steps waits (shows.awaited waiting synced)
          refine ⟨rfl, intact, _, awaited.tail (.launch waits rfl), shows.primary, shows.dependents,
            ⟨log, ?_⟩, rfl, by simp, shows.shutdown⟩
          simp [Controller.crew, crew, Controller.plan]
      · next unsynced =>
          cases moved
          have awaited := Run.await_steps waits (shows.awaited waiting unsynced)
          refine ⟨rfl, intact, _, awaited.tail (.abort waits rfl), shows.primary, shows.dependents,
            ⟨log, crew⟩, ?_, by simp, shows.shutdown⟩
          simp [shows.shutdown, Controller.plan]
  · next running =>
      split at moved
      · next asked =>
          cases moved
          refine ⟨rfl, intact, _, .single (.stop (shows.phase.trans running)
            (shows.shutdown.trans asked)), shows.primary, shows.dependents, ⟨log, ?_⟩, rfl, by simp,
            shows.shutdown⟩
          simp [Controller.crew, crew]
      · contradiction
  · next stopping =>
      split at moved
      · next all =>
          cases moved
          refine ⟨rfl, intact, _, .single (.finish (shows.phase.trans stopping) ?_), shows.primary,
            shows.dependents, ⟨log, crew⟩, rfl, by simp, shows.shutdown⟩
          intro member present
          rw [crew] at present
          obtain ⟨worker, here, rfl⟩ := List.mem_map.mp present
          have stopped := List.all_eq_true.mp all worker here
          cases worker <;> first | rfl | contradiction
      · contradiction
  · contradiction

/-- What a controller does is what a run does. -/
theorem step [DecidableEq σ] (shows : controller.Shows run) (intact : controller.broken = [])
    (moved : controller.step? = some after) : controller.Follows after run := by
  have worker {places : List Nat} (found : places.findSome? controller.workerStep? = some after) :
      controller.Follows after run := by
    obtain ⟨place, _, stepped⟩ := List.exists_of_findSome?_eq_some found
    exact shows.worker intact stepped
  unfold step? at moved
  cases holding : controller.places.1.findSome? controller.workerStep? with
  | some found =>
      rw [holding] at moved
      cases moved
      exact worker holding
  | none =>
      cases told : controller.siteStep? with
      | some found =>
          rw [holding, told] at moved
          cases moved
          unfold siteStep? at told
          split at told
          · next here =>
              cases told
              obtain ⟨type, watched, stepped⟩ := List.exists_of_findSome?_eq_some here
              exact shows.dependentSite intact watched stepped
          · exact shows.primarySite intact told
      | none =>
          cases turned : controller.phaseStep? with
          | some found =>
              rw [holding, told, turned] at moved
              cases moved
              exact shows.turn intact turned
          | none =>
              rw [holding, told, turned] at moved
              exact worker moved

theorem settle [DecidableEq σ] (shows : controller.Shows run) (intact : controller.broken = [])
    (fuel : Nat) : controller.Follows (controller.settle fuel) run := by
  induction fuel generalizing controller run with
  | zero => exact ⟨rfl, intact, run, .refl, shows⟩
  | succ fuel ih =>
      unfold Controller.settle
      split
      · next moved =>
          obtain ⟨plan, whole, later, steps, shown⟩ := shows.step intact moved
          obtain ⟨same, still, last, more, shownLast⟩ := ih shown whole
          exact ⟨same.trans plan, still, last, steps.trans (plan ▸ more), shownLast⟩
      · exact ⟨rfl, intact, run, .refl, shows⟩

end Shows

/-- A controller that has not started: only the clock of its queue may have moved. -/
structure Fresh (controller : Controller α σ) : Prop where
  queue : ∃ limiter now, controller.queue = { limiter, now }
  workers : controller.workers = []
  shutdown : controller.shutdown = false
  broken : controller.broken = []

/-- When a controller starts a run starts. -/
theorem shows_start (fresh : controller.Fresh) (runs : Bool) :
    ∃ run : Run α Manifest, Run.Reachable controller.plan run ∧
      (controller.start runs).Shows run := by
  obtain ⟨limiter, now, idle⟩ := fresh.queue
  have started : Run.Reachable controller.plan
      (Run.start controller.settings.ingestCapacity (controller.settings.limiter now) :
        Run α Manifest) := .start _
  have begun := Run.Reachable.step started (.crew (.tick (controller.settings.limiter now) now))
  have dependents (type : BuiltIn) (watched : type ∈ controller.kinds) :
      (Chronicle.start controller.settings.ingestCapacity : Chronicle (Manifest type)).ingest =
        ((controller.start runs).dependents.get type).ingest := by
    simp only [start, PerKind.get_ofFun, if_pos watched]
    rfl
  have crew : ({ queue := { limiter := controller.settings.limiter now, now }, members := [] } :
      Crew) = (controller.start runs).crew [] := by
    simp [Controller.crew, start, fresh.workers, idle]
  cases runs with
  | false =>
      exact ⟨_, begun, rfl, dependents, ⟨[], crew⟩, rfl, by simp [start], fresh.shutdown.symm⟩
  | true =>
      exact ⟨_, .step begun (.begin rfl), rfl, dependents, ⟨[], crew⟩, rfl, fun _ => rfl,
        fresh.shutdown.symm⟩

/-- However far a controller has come since it was started: no two of its workers have the same key,
while some kind has not synced there are no workers, and when it has finished its workers have stopped
and nobody has a key. -/
theorem settle_start [DecidableEq σ] (fresh : controller.Fresh) (runs : Bool) (fuel : Nat)
    (reached : (controller.start runs).settle fuel = after) :
    (∃ log, (after.crew log).Orderly) ∧
      ((∃ signal ∈ after.signals, signal.synced = false) → after.workers = []) ∧
      ∀ result, after.phase = .finished result →
        (∀ worker ∈ after.workers, worker = .stopped) ∧
          after.queue.shared.queue.processing = [] := by
  obtain ⟨run, begun, shows⟩ := shows_start fresh runs
  obtain ⟨plan, -, later, steps, shown⟩ := shows.settle fresh.broken fuel
  rw [reached] at plan shown
  have kept := Run.Kept.of_reachable (begun.steps steps)
  obtain ⟨log, crew⟩ := shown.crew
  refine ⟨⟨log, crew ▸ kept.orderly⟩, ?_, fun result finished => ?_⟩
  · rintro ⟨signal, member, unsynced⟩
    by_contra somebody
    have present : later.crew.members ≠ [] := by simpa [crew, Controller.crew] using somebody
    have synced := kept.synced present signal
    rw [show controller.plan = after.plan from plan.symm, shown.signals] at synced
    simp [synced member] at unsynced
  · have ended := shown.phase.trans finished
    refine ⟨fun worker member => ?_, ?_⟩
    · have stopped := kept.stopped ended ⟨worker, false⟩
      rw [crew] at stopped
      exact stopped (List.mem_map_of_mem member)
    · have processing := (kept.finished ended).2.1
      rw [crew] at processing
      exact processing

end Sites

end Controller

end ReconcileLoop
