import ReconcileLoop.Proofs.Reconcile.Converged

namespace ReconcileLoop

/-! # A pass after a pass

Once the caches have absorbed what a successful pass did, another pass for the same key has nothing
to do: it calls no store, tells nobody, and leaves the world as it is.
-/

namespace Reconciler

variable {α σ : Type} [Primary α σ] [DecidableEq σ]

/-- A pass for a key succeeds, tells nobody, and leaves the world as it is: the objects of all stores,
and the number of the calls of each operation that they have counted. -/
structure Idles (reconciler : Reconciler α σ) (world : World α) (key : Key) : Prop where
  inSync : world.InSync
  unchanged : reconciler.pass world key = { result := .ok (), world, events := [] }

theorem idles_absorb [LawfulPrimary α] {reconciler : Reconciler α σ} {world : World α} {key : Key}
    (lawful : reconciler.Lawful) (inSync : world.InSync) (calm : world.Calm)
    (done : (reconciler.pass world key).result = .ok ()) :
    reconciler.Idles (world.absorb (reconciler.pass world key).world) key := by
  cases subject : world.subject? key with
  | none =>
      rw [pass_of_none reconciler subject]
      have settled := inSync.absorb_self
      refine ⟨settled, ?_⟩
      have gone : (world.absorb world).subject? key = none := by
        rw [settled.subject?_eq, World.primaries_absorb, ← inSync.subject?_eq, subject]
      exact pass_of_none reconciler gone
  | some primary =>
      obtain ⟨present, _, able⟩ := inSync.subject subject
      have passed := pass_passed lawful inSync subject
      have completed := pass_completed lawful inSync calm subject
      have free : Dependent.firstObstacle? world primary reconciler.dependents = none := by
        have result := completed.result
        rw [done] at result
        exact result.free
      obtain ⟨later, renewed, there, status⟩ := completed.later passed present free
      have settled := passed.inSync inSync
      have subjectLater := settled.subject_renewed subject able renewed there
      have unobstructed := Dependent.firstObstacle?_eq_none.mp free
      refine ⟨settled, pass_idle lawful settled subjectLater ?_ ?_ ?_⟩
      · intro dependent member
        have reached : dependent ∈ Dependent.reached world primary reconciler.dependents := by
          rw [Dependent.reached_eq_self unobstructed]
          exact member
        rw [lawful.order_eq able renewed member, World.stored_absorb]
        exact completed.tidy dependent reached
      · intro dependent member
        calc dependent.obstacle? (world.absorb (reconciler.pass world key).world) later
          _ = dependent.obstacle? (world.absorb (reconciler.pass world key).world) primary :=
              lawful.obstacle?_eq able renewed dependent member
          _ = dependent.obstacle? (reconciler.pass world key).world primary := by
              rw [Dependent.obstacle?, World.stored_absorb, Dependent.obstacle?]
          _ = dependent.obstacle? world primary :=
              passed.toward.obstacle?_eq lawful.distinct
                (fun type => (inSync.dependents type).keyed) dependent member
          _ = none := unobstructed dependent member
      · rw [lawful.observed_eq able renewed,
          observed_congr reconciler primary (World.stored_absorb world _), status]

/-- Once the caches have absorbed what a successful pass for an app or for a service did, a second
pass has nothing to do. -/
theorem pass_idempotent :
    (∀ (name : String) (world : World App) (key : Key), world.InSync → world.Calm →
      ((ofApps name).pass world key).result = .ok () →
      (ofApps name).Idles (world.absorb ((ofApps name).pass world key).world) key) ∧
    ∀ (name : String) (template : IngressTemplate) (world : World Service) (key : Key),
      world.InSync → world.Calm →
      ((ofServices name template).pass world key).result = .ok () →
      (ofServices name template).Idles
        (world.absorb ((ofServices name template).pass world key).world) key := by
  refine ⟨fun name world key inSync calm done => ?_,
    fun name template world key inSync calm done => ?_⟩
  · exact idles_absorb (ofApps_lawful name) inSync calm done
  · exact idles_absorb (ofServices_lawful name template) inSync calm done

theorem pass_idempotent_renamed :
    (renamedWorld.InSync ∧ renamedWorld.Calm ∧
      ((ofApps "app").pass renamedWorld ⟨some "ns", "web"⟩).result = .ok () ∧
      (ofApps "app").Idles
        (renamedWorld.absorb ((ofApps "app").pass renamedWorld ⟨some "ns", "web"⟩).world)
        ⟨some "ns", "web"⟩) ∧
    exposedWorld.InSync ∧ exposedWorld.Calm ∧
      ((ofServices "service" {}).pass exposedWorld ⟨some "ns", "web"⟩).result = .ok () ∧
      (ofServices "service" {}).Idles
        (exposedWorld.absorb ((ofServices "service" {}).pass exposedWorld ⟨some "ns", "web"⟩).world)
        ⟨some "ns", "web"⟩ := by
  have done : ((ofApps "app").pass renamedWorld ⟨some "ns", "web"⟩).result = .ok () :=
    (converges (ofApps_lawful "app") renamedWorld_inSync renamedWorld_calm rfl rfl (by decide)
      renamedWorld_unopposed).succeeds
  have also : ((ofServices "service" {}).pass exposedWorld ⟨some "ns", "web"⟩).result = .ok () :=
    (converges (ofServices_lawful "service" {}) exposedWorld_inSync exposedWorld_calm rfl rfl
      (by decide) (exposedWorld_unopposed {})).succeeds
  refine ⟨⟨renamedWorld_inSync, renamedWorld_calm, done, ?_⟩,
    exposedWorld_inSync, exposedWorld_calm, also, ?_⟩
  · exact pass_idempotent.1 "app" renamedWorld ⟨some "ns", "web"⟩ renamedWorld_inSync
      renamedWorld_calm done
  · exact pass_idempotent.2 "service" {} exposedWorld ⟨some "ns", "web"⟩ exposedWorld_inSync
      exposedWorld_calm also

end Reconciler

end ReconcileLoop
