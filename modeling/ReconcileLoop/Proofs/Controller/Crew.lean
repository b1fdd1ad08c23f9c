import ReconcileLoop.Proofs.Run

namespace ReconcileLoop.Controller

/-! # The workers of a controller are a crew

Every step of a worker is a step of a crew, and leaves everything alone that is no business of a crew
(`Controller.crew_workerStep?`). That is so of a controller whose metrics are intact: a broken metric
could take a worker away while it has a key in hand.
-/

variable {α σ : Type}

/-- What is chosen about a controller. -/
def plan (controller : Controller α σ) : Plan BuiltIn where
  name := controller.reconciler.name
  settings := controller.settings
  kinds := controller.kinds

/-- What a step of a worker leaves as it was. -/
structure Beside (controller after : Controller α σ) : Prop where
  plan : after.plan = controller.plan
  primary : after.primary.ingest = controller.primary.ingest
  dependents (type : BuiltIn) :
    (after.dependents.get type).ingest = (controller.dependents.get type).ingest
  phase : after.phase = controller.phase
  shutdown : after.shutdown = controller.shutdown

/-- The queue and the workers of a controller, with what went through their hands. -/
def crew (controller : Controller α σ) (log : List Handover) : Crew where
  queue := controller.queue
  members := controller.workers.map fun worker => { worker }
  log

theorem crew_setWorker (controller : Controller α σ) (log : List Handover) (place : Nat)
    (worker : Worker) :
    (controller.setWorker place worker).crew log =
      (controller.crew log).move place { worker } := by
  simp [crew, setWorker, Crew.move, List.map_set]

theorem crew_there {controller : Controller α σ} {place : Nat} {worker : Worker}
    (there : controller.workers[place]? = some worker) (log : List Handover) :
    (controller.crew log).members[place]? = some ⟨worker, false⟩ := by
  simp [crew, there]

theorem beside_edit (controller : Controller α σ) (queue : WorkQueue Key) (workers : List Worker)
    (events : List Event) (reports : List FailureReport) (crashes : List String) :
    controller.Beside { controller with queue, workers, events, reports, crashes } :=
  ⟨rfl, rfl, fun _ => rfl, rfl, rfl⟩

variable [Primary α σ] [DecidableEq σ]

theorem crew_passStep {controller : Controller α σ} (intact : controller.broken = []) (place : Nat)
    (key : Key) (log : List Handover) :
    (controller.passStep place key).broken = [] ∧
      controller.Beside (controller.passStep place key) ∧
      ∃ result, (controller.passStep place key).crew log =
        (controller.crew log).move place ⟨.settling key result, false⟩ := by
  unfold passStep
  split
  · exact ⟨intact, controller.beside_edit .., _, crew_setWorker _ log place _⟩
  · have whole : (controller.pass key).2.broken = [] := intact
    simp only [crash?_eq_none whole]
    refine ⟨intact, ⟨rfl, rfl, fun type => ?_, rfl, rfl⟩, _, crew_setWorker _ log place _⟩
    simp [pass, absorb, setWorker]

/-- What a worker does is what a member of a crew does. -/
theorem crew_workerStep? {controller after : Controller α σ} {place : Nat}
    (moved : controller.workerStep? place = some after) (intact : controller.broken = [])
    (log : List Handover) :
    after.broken = [] ∧ controller.Beside after ∧
      ∃ later, Crew.Step controller.settings.maxRetries (controller.crew log)
        (after.crew later) := by
  unfold workerStep? at moved
  cases there : controller.workers[place]? with
  | none => simp [there] at moved
  | some worker =>
      have member := crew_there there log
      simp only [there, Option.bind_eq_bind, Option.bind_some] at moved
      cases worker with
      | getting getter =>
          have get (moved : controller.getStep? place getter = some after) :
              after.broken = [] ∧ controller.Beside after ∧ ∃ later,
                Crew.Step controller.settings.maxRetries (controller.crew log)
                  (after.crew later) := by
            simp only [getStep?, crash?_eq_none intact, Option.bind_eq_bind,
              Option.bind_eq_some_iff] at moved
            obtain ⟨⟨shared, next⟩, stepped, same⟩ := moved
            cases same
            refine ⟨intact, controller.beside_edit .., Crew.entry place next ++ log, ?_⟩
            rw [crew_setWorker]
            exact .get place member stepped
          cases getter with
          | finished key? =>
              cases key? with
              | none =>
                  cases moved
                  exact ⟨intact, controller.beside_edit .., log,
                    crew_setWorker controller log place _ ▸ .stop member⟩
              | some key =>
                  cases moved
                  exact ⟨intact, controller.beside_edit .., log,
                    crew_setWorker controller log place _ ▸ .begin member⟩
          | fresh => exact get moved
          | joined ticket? => exact get moved
          | waiting ticket? => exact get moved
      | holding key =>
          cases moved
          obtain ⟨whole, beside, result, same⟩ := crew_passStep intact place key log
          exact ⟨whole, beside, log, same ▸ .pass result member⟩
      | settling key result =>
          cases moved
          simp only [settleStep, crash?_eq_none intact]
          have settled := Crew.Step.settle member
            (rfl : Retry.handle controller.settings.maxRetries controller.queue key result = _)
          split
          · next decision =>
              refine ⟨intact, controller.beside_edit .., log, ?_⟩
              rw [decision] at settled
              rw [crew_setWorker]
              exact settled
          · next other =>
              have goes : Crew.afterSettling key (Retry.handle controller.settings.maxRetries
                  controller.queue key result).decision = .releasing key := by
                unfold Crew.afterSettling
                split
                · next decided => exact absurd decided (other _ _)
                · rfl
              refine ⟨intact, controller.beside_edit .., log, ?_⟩
              rw [goes] at settled
              rw [crew_setWorker]
              exact settled
      | reporting key message =>
          cases moved
          refine ⟨intact, controller.beside_edit .., log, ?_⟩
          rw [reportStep, crew_setWorker]
          exact .report false member
      | releasing key =>
          cases moved
          simp only [releaseStep, crash?_eq_none intact]
          refine ⟨intact, controller.beside_edit .., .released place key :: log, ?_⟩
          rw [crew_setWorker]
          exact .release member
      | stopped => contradiction

end ReconcileLoop.Controller
