import ReconcileLoop.Proofs.Reconcile.Converged

namespace ReconcileLoop

/-! # Failed passes are made good

Whatever calls fail, a pass leads at most part of the way to what its primary ordered
(`Reconciler.Trail`), and the next pass goes on from there. So after any number of passes with
failures a calm one has the same result, and leaves the same stores, as if it had been the first.
-/

/-- What makes calls on one store fail: replies that are prepared for the calls of each operation, and
a number of failures to come. -/
structure Faults where
  replies : PerOp (List Reply) := .all []
  failures : PerOp Nat := .all 0

structure Disturbance where
  primary : Faults := {}
  dependents : BuiltIn → Faults := fun _ => {}

def Access.under {δ : Type} (access : Access δ) (faults : Faults) : Access δ where
  cache := access.cache
  api := { store := { access.api.store with failures := faults.failures }, replies := faults.replies }

def World.under {α : Type} (world : World α) (disturbance : Disturbance) : World α where
  primary := world.primary.under disturbance.primary
  dependents := .ofFun fun type =>
    (world.dependents.get type).under (disturbance.dependents type)

variable {α σ : Type} [Primary α σ]

namespace World

variable {world : World α}

theorem InSync.under (inSync : world.InSync) (disturbance : Disturbance) :
    (world.under disturbance).InSync where
  primary := ⟨inSync.primary.items, inSync.primary.owners, inSync.primary.keyed⟩
  identified := inSync.identified
  dependents type := by
    rw [World.under, PerKind.get_ofFun]
    have here := inSync.dependents type
    exact ⟨here.items, here.owners, here.keyed⟩

theorem stored_under (world : World α) (disturbance : Disturbance) (type : BuiltIn) :
    (world.under disturbance).stored type = world.stored type := by
  rw [stored, World.under, PerKind.get_ofFun]
  rfl

theorem under_calm (world : World α) : (world.under {}).Calm where
  primary := ⟨fun op => by cases op <;> rfl, fun op => by cases op <;> rfl⟩
  dependents type := by
    rw [World.under, PerKind.get_ofFun]
    exact ⟨fun op => by cases op <;> rfl, fun op => by cases op <;> rfl⟩

end World

namespace Reconciler

/-- How far a primary and its dependents have come from where they started. -/
structure Trail (reconciler : Reconciler α σ) (key : Key) (primary : α) (start now : World α) :
    Prop where
  toward : start.Toward now primary (Dependent.reached start primary reconciler.dependents)
  status : now.primaries = start.primaries ∨ reconciler.Reported key primary start now

variable {reconciler : Reconciler α σ} {key : Key} {primary : α} {start now after : World α}

theorem Trail.congr (trail : reconciler.Trail key primary start now)
    (stored : ∀ type, after.stored type = now.stored type)
    (primaries : after.primaries = now.primaries) : reconciler.Trail key primary start after where
  toward := by
    refine ⟨fun dependent member => ?_, fun type outside => ?_⟩
    · rw [stored]
      exact trail.toward.moved dependent member
    · rw [stored]
      exact trail.toward.others type outside
  status := by
    rcases trail.status with same | ⟨free, there, written⟩
    · exact .inl (primaries.trans same)
    · refine .inr ⟨free, fun dependent member => ?_, ?_⟩
      · rw [stored]
        exact there dependent member
      · rw [primaries, observed_congr reconciler primary stored]
        exact written

theorem observed_kept (keyed : ∀ type, Keyed (now.stored type))
    (toward : ∀ dependent ∈ reconciler.dependents, (dependent.order primary).Toward
      (now.stored dependent.type) (after.stored dependent.type))
    (there : ∀ dependent ∈ reconciler.dependents, ∀ place object,
      dependent.template.wanted primary = some (place, object) →
        ∃ held, (now.stored dependent.type)[place]? = some held) :
    reconciler.observed after primary = reconciler.observed now primary := by
  refine Dependent.reportAll_congr (fun dependent member status => ?_) _
  have same : Dependent.found? after primary dependent =
      Dependent.found? now primary dependent := by
    unfold Dependent.found? Order.found?
    cases wanted : (dependent.order primary).wanted with
    | none => rfl
    | some entry =>
        obtain ⟨held, present⟩ := there dependent member entry.1 entry.2 wanted
        have kept := (toward dependent member).held Template.order_sound
          (keyed dependent.type) wanted present
        simp only [Option.bind_some, present, kept]
  rw [same]

variable [LawfulPrimary α]

/-- The primary as it is found on the way: as it was at the start, or with the status that follows
from its dependents. -/
theorem Trail.later (trail : reconciler.Trail key primary start now)
    (present : start.primaries[key]? = some primary) :
    ∃ later, Renewed primary later ∧ now.primaries[key]? = some later ∧
      (later = primary ∧ now.primaries = start.primaries ∨
        reconciler.Reported key primary start now ∧
          Primary.status later = reconciler.observed now primary) := by
  rcases trail.status with same | reported
  · exact ⟨primary, .inl rfl, same ▸ present, .inl ⟨rfl, same⟩⟩
  · obtain ⟨later, renewed, there, status⟩ := reported.written.later
    exact ⟨later, renewed, there, .inr ⟨reported, status⟩⟩

section

variable {later : α} (lawful : reconciler.Lawful) (keyed : ∀ type, Keyed (start.stored type))
  (able : CanOwn primary) (renewed : Renewed primary later)
  (trail : reconciler.Trail key primary start now)

include lawful keyed able renewed trail

theorem Trail.obstacle?_eq : ∀ dependent ∈ reconciler.dependents,
    dependent.obstacle? now later = dependent.obstacle? start primary := by
  intro dependent member
  rw [lawful.obstacle?_eq able renewed dependent member,
    trail.toward.obstacle?_eq lawful.distinct keyed dependent member]

theorem Trail.reached_eq : Dependent.reached now later reconciler.dependents =
    Dependent.reached start primary reconciler.dependents :=
  Dependent.reached_congr (trail.obstacle?_eq lawful keyed able renewed)

theorem Trail.toward_pass (passed : reconciler.Passed key later now after) :
    start.Toward after primary (Dependent.reached start primary reconciler.dependents) where
  moved dependent member := by
    have inside := Dependent.mem_of_reached member
    have further := passed.toward.each lawful.distinct inside
    rw [lawful.order_eq able renewed inside] at further
    exact (trail.toward.moved dependent member).trans Template.order_sound (keyed dependent.type)
      further
  others type outside := by
    have unmoved := passed.toward.others type
    rw [trail.reached_eq lawful keyed able renewed] at unmoved
    exact (unmoved outside).trans (trail.toward.others type outside)

end

theorem Trail.pass (lawful : reconciler.Lawful) (keyed : ∀ type, Keyed (start.stored type))
    (keyedNow : ∀ type, Keyed (now.stored type)) (able : CanOwn primary) {later : α}
    (renewed : Renewed primary later) (trail : reconciler.Trail key primary start now)
    (found : later = primary ∧ now.primaries = start.primaries ∨
      reconciler.Reported key primary start now ∧
        Primary.status later = reconciler.observed now primary)
    (passed : reconciler.Passed key later now after) :
    reconciler.Trail key primary start after := by
  have obstacles := trail.obstacle?_eq lawful keyed able renewed
  have further : ∀ dependent ∈ reconciler.dependents, (dependent.order primary).Toward
      (now.stored dependent.type) (after.stored dependent.type) := by
    intro dependent member
    rw [← lawful.order_eq able renewed member]
    exact passed.toward.each lawful.distinct member
  refine ⟨trail.toward_pass lawful keyed able renewed passed, ?_⟩
  rcases found with ⟨rfl, same⟩ | ⟨reported, status⟩
  · rcases passed.status with unchanged | ⟨free, there, written⟩
    · exact .inl (unchanged.trans same)
    · refine .inr ⟨fun dependent member => ?_, there, same ▸ written⟩
      rw [← obstacles dependent member]
      exact free dependent member
  · -- The status was written before, and it is still the one that follows.
    have observed := observed_kept keyedNow further reported.there
    rcases passed.status with unchanged | again
    · refine .inr ⟨reported.free, fun dependent member place object wanted => ?_, ?_⟩
      · obtain ⟨held, present⟩ := reported.there dependent member place object wanted
        exact ⟨held, (further dependent member).held Template.order_sound
          (keyedNow dependent.type) wanted present⟩
      · rw [unchanged, observed]
        exact reported.written
    · have differs := again.written.1
      rw [lawful.observed_eq able renewed, observed, status] at differs
      contradiction

variable [DecidableEq σ]

/-- What becomes of a world by a pass that is disturbed, once the caches have absorbed what it did. -/
def attempt (reconciler : Reconciler α σ) (key : Key) (world : World α)
    (disturbance : Disturbance) : World α :=
  (world.under disturbance).absorb (reconciler.pass (world.under disturbance) key).world

theorem Trail.pass_under (lawful : reconciler.Lawful) (inSync : start.InSync)
    (subject : start.subject? key = some primary) (trail : reconciler.Trail key primary start now)
    (inSyncNow : now.InSync) (disturbance : Disturbance) :
    ∃ later, Renewed primary later ∧ (now.under disturbance).subject? key = some later ∧
      reconciler.Passed key later (now.under disturbance)
        (reconciler.pass (now.under disturbance) key).world ∧
      reconciler.Trail key primary start (reconciler.pass (now.under disturbance) key).world := by
  obtain ⟨present, _, able⟩ := inSync.subject subject
  have keyed (type : BuiltIn) : Keyed (start.stored type) := (inSync.dependents type).keyed
  have disturbed := inSyncNow.under disturbance
  have trailUnder : reconciler.Trail key primary start (now.under disturbance) :=
    trail.congr (World.stored_under now disturbance) rfl
  obtain ⟨later, renewed, there, found⟩ := trailUnder.later present
  have subjectLater := disturbed.subject_renewed subject able renewed there
  have passed := pass_passed lawful disturbed subjectLater
  exact ⟨later, renewed, subjectLater, passed, trailUnder.pass lawful keyed
    (fun type => (disturbed.dependents type).keyed) able renewed found passed⟩

theorem Trail.attempts (lawful : reconciler.Lawful) (inSync : start.InSync)
    (subject : start.subject? key = some primary) (disturbances : List Disturbance)
    (trail : reconciler.Trail key primary start now) (inSyncNow : now.InSync) :
    reconciler.Trail key primary start (disturbances.foldl (reconciler.attempt key) now) ∧
      (disturbances.foldl (reconciler.attempt key) now).InSync := by
  induction disturbances generalizing now with
  | nil => exact ⟨trail, inSyncNow⟩
  | cons disturbance rest ih =>
      obtain ⟨later, _, _, passed, after⟩ :=
        trail.pass_under lawful inSync subject inSyncNow disturbance
      exact ih (after.congr (World.stored_absorb _ _) (World.primaries_absorb _ _))
        (passed.inSync (inSyncNow.under disturbance))

/-- What a calm pass leads to, seen from where the passes before it started. -/
structure Finished (reconciler : Reconciler α σ) (key : Key) (primary : α) (start : World α)
    (outcome : PassOutcome α) : Prop where
  result : FailsFor (Dependent.firstObstacle? start primary reconciler.dependents) outcome.result
  toward : start.Toward outcome.world primary
    (Dependent.reached start primary reconciler.dependents)
  tidy : ∀ dependent ∈ Dependent.reached start primary reconciler.dependents,
    (dependent.order primary).Tidy (outcome.world.stored dependent.type)
  status : outcome.world.primaries = start.primaries ∧
      (Dependent.firstObstacle? start primary reconciler.dependents = none →
        reconciler.observed outcome.world primary = Primary.status primary) ∨
    reconciler.Reported key primary start outcome.world

theorem Trail.finish (lawful : reconciler.Lawful) (inSync : start.InSync)
    (subject : start.subject? key = some primary) (trail : reconciler.Trail key primary start now)
    (inSyncNow : now.InSync) :
    reconciler.Finished key primary start (reconciler.pass (now.under {}) key) := by
  obtain ⟨present, _, able⟩ := inSync.subject subject
  have keyed (type : BuiltIn) : Keyed (start.stored type) := (inSync.dependents type).keyed
  obtain ⟨later, renewed, subjectLater, passed, after⟩ :=
    trail.pass_under lawful inSync subject inSyncNow {}
  have calmed := inSyncNow.under {}
  have completed := pass_completed lawful calmed now.under_calm subjectLater
  have trailUnder : reconciler.Trail key primary start (now.under {}) :=
    trail.congr (World.stored_under now {}) rfl
  have obstacles := Dependent.firstObstacle?_congr
    (trailUnder.obstacle?_eq lawful keyed able renewed)
  refine ⟨?_, after.toward, fun dependent member => ?_, ?_⟩
  · rw [← obstacles]
    exact completed.result
  · rw [← trailUnder.reached_eq lawful keyed able renewed] at member
    have tidy := completed.tidy dependent member
    rwa [lawful.order_eq able renewed (Dependent.mem_of_reached member)] at tidy
  · rcases after.status with same | reported
    · refine .inl ⟨same, fun free => ?_⟩
      obtain ⟨stored, _, there, status⟩ := completed.later passed
        (calmed.subject subjectLater).1 (obstacles.trans free)
      rw [same, present] at there
      cases there
      rw [← lawful.observed_eq able renewed, status]
    · exact .inr reported

end Reconciler

/-- Two ways on for a world that agree but for the versions of what was written, and the uids of what
was created. -/
structure World.Twins (start first second : World α) : Prop where
  dependents (type : BuiltIn) :
    Store.Twins (start.stored type) (first.stored type) (second.stored type)
  primaries (key : Key) : first.primaries[key]? = second.primaries[key]? ∨ ∃ one other version,
    first.primaries[key]? = some one ∧ second.primaries[key]? = some other ∧
      other = Resource.withMetadata one { Resource.metadata one with resourceVersion := version }

namespace Reconciler

variable {reconciler : Reconciler α σ} {key : Key} {primary : α} {start : World α}
  {first second : PassOutcome α}

theorem Finished.stored_twins [LawfulPrimary α]
    (one : reconciler.Finished key primary start first)
    (other : reconciler.Finished key primary start second) (type : BuiltIn) :
    Store.Twins (start.stored type) (first.world.stored type) (second.world.stored type) := by
  by_cases reached : ∃ dependent ∈ Dependent.reached start primary reconciler.dependents,
      dependent.type = type
  · obtain ⟨dependent, member, rfl⟩ := reached
    exact (one.toward.moved dependent member).twins (one.tidy dependent member)
      (other.toward.moved dependent member) (other.tidy dependent member)
  · have outside : ∀ dependent ∈ Dependent.reached start primary reconciler.dependents,
        dependent.type ≠ type := fun dependent member same => reached ⟨dependent, member, same⟩
    intro place
    rw [one.toward.others type outside, other.toward.others type outside]
    exact .inl rfl

theorem observed_alike (lawful : reconciler.Lawful) {one other : World α}
    (alike : ∀ dependent ∈ reconciler.dependents, ∀ place object,
      dependent.template.wanted primary = some (place, object) →
        (one.stored dependent.type)[place]? = (other.stored dependent.type)[place]? ∨
          ∃ left right, (one.stored dependent.type)[place]? = some left ∧
            (other.stored dependent.type)[place]? = some right ∧ Store.Alike left right) :
    reconciler.observed other primary = reconciler.observed one primary := by
  refine Dependent.reportAll_congr (fun dependent member status => ?_) _
  unfold Dependent.found? Order.found?
  cases wanted : (dependent.order primary).wanted with
  | none => rfl
  | some entry =>
      simp only [Option.bind_some]
      rcases alike dependent member entry.1 entry.2 wanted with
        same | ⟨left, right, here, there, uid, version, rfl⟩
      · rw [same]
      · simp only [here, there, Template.report,
          (lawful.templates dependent member).observe_withMetadata]

theorem observed_twins (lawful : reconciler.Lawful) {one other : World α}
    (twins : ∀ type, Store.Twins (start.stored type) (one.stored type) (other.stored type)) :
    reconciler.observed other primary = reconciler.observed one primary :=
  observed_alike lawful fun dependent _ place _ _ => (twins dependent.type place).imp_right And.right

/-- Writing one status twice leaves the same but for the version. -/
theorem reported_alike [LawfulPrimary α] (able : CanOwn primary) {status : σ} {one other : α}
    (first : Store.StampOf (Primary.setStatus primary status) one)
    (second : Store.StampOf (Primary.setStatus primary status) other) : ∃ version,
      other = Resource.withMetadata one { Resource.metadata one with resourceVersion := version } := by
  obtain ⟨uid, identified⟩ := able.identified
  obtain ⟨fresh, version, rfl⟩ := first
  obtain ⟨later, last, rfl⟩ := second
  refine ⟨some (toString last), ?_⟩
  rw [LawfulResource.withMetadata_withMetadata, Resource.metadata_withMetadata]
  simp only [Store.stamped, LawfulPrimary.metadata_setStatus, identified, Option.getD_some]

theorem Finished.twins [LawfulPrimary α] (lawful : reconciler.Lawful) (able : CanOwn primary)
    (one : reconciler.Finished key primary start first)
    (other : reconciler.Finished key primary start second) :
    second.result = first.result ∧ start.Twins first.world second.world := by
  refine ⟨other.result.result_eq one.result, one.stored_twins other, fun place => ?_⟩
  have observed : reconciler.observed second.world primary =
      reconciler.observed first.world primary := observed_twins lawful (one.stored_twins other)
  rcases one.status with ⟨same, unchanged⟩ | reported
  · rcases other.status with ⟨also, _⟩ | written
    · exact .inl (by rw [same, also])
    · have free := Dependent.firstObstacle?_eq_none.mpr written.free
      exact absurd (observed.trans (unchanged free)) written.written.1
  · rcases other.status with ⟨_, unchanged⟩ | written
    · have free := Dependent.firstObstacle?_eq_none.mpr reported.free
      exact absurd (observed.symm.trans (unchanged free)) reported.written.1
    · obtain ⟨_, left, stamp, here⟩ := reported.written
      obtain ⟨_, right, later, there⟩ := written.written
      rw [observed] at later
      rw [here, there, Std.ExtTreeMap.getElem?_insert, Std.ExtTreeMap.getElem?_insert]
      by_cases same : key = place
      · subst same
        obtain ⟨version, alike⟩ := reported_alike able stamp later
        exact .inr ⟨left, right, version, by simp, by simp, alike⟩
      · simp [same]

variable [DecidableEq σ]

/-- After some disturbed passes for a key, a calm one does what it would have done at once. -/
def Recovers (reconciler : Reconciler α σ) (world : World α) (key : Key)
    (disturbances : List Disturbance) : Prop :=
  let failed := disturbances.foldl (reconciler.attempt key) world
  let recovered := reconciler.pass (failed.under {}) key
  let direct := reconciler.pass (world.under {}) key
  recovered.result = direct.result ∧ world.Twins direct.world recovered.world

theorem attempts_of_none (reconciler : Reconciler α σ) {world now : World α}
    (subject : world.subject? key = none) (inSync : world.InSync) (inSyncNow : now.InSync)
    (primaries : now.primaries = world.primaries)
    (stored : ∀ type, now.stored type = world.stored type) (disturbances : List Disturbance) :
    let last := disturbances.foldl (reconciler.attempt key) now
    last.subject? key = none ∧ last.primaries = world.primaries ∧
      ∀ type, last.stored type = world.stored type := by
  induction disturbances generalizing now with
  | nil =>
      refine ⟨?_, primaries, stored⟩
      rw [List.foldl_nil, inSyncNow.subject?_eq, primaries, ← inSync.subject?_eq, subject]
  | cons disturbance rest ih =>
      have disturbed := inSyncNow.under disturbance
      have same : (now.under disturbance).primaries = world.primaries := primaries
      have gone : (now.under disturbance).subject? key = none := by
        rw [disturbed.subject?_eq, same, ← inSync.subject?_eq, subject]
      have idle : reconciler.attempt key now disturbance =
          (now.under disturbance).absorb (now.under disturbance) := by
        rw [attempt, pass_of_none reconciler gone]
      refine ih (idle ▸ disturbed.absorb_self) ?_ fun type => ?_
      · rw [idle, World.primaries_absorb, same]
      · rw [idle, World.stored_absorb, World.stored_under, stored]

theorem recovers [LawfulPrimary α] (lawful : reconciler.Lawful) {world : World α}
    (inSync : world.InSync) (disturbances : List Disturbance) :
    reconciler.Recovers world key disturbances := by
  cases subject : world.subject? key with
  | none =>
      obtain ⟨gone, primaries, stored⟩ :=
        attempts_of_none reconciler subject inSync inSync rfl (fun _ => rfl) disturbances
      have calm : (world.under {}).subject? key = none := subject
      have goneToo :
          ((disturbances.foldl (reconciler.attempt key) world).under {}).subject? key = none := gone
      simp only [Recovers, pass_of_none reconciler calm, pass_of_none reconciler goneToo]
      refine ⟨trivial, ⟨fun type place => .inl ?_, fun place => .inl ?_⟩⟩
      · rw [World.stored_under, World.stored_under, stored]
      · exact congrArg (·[place]?) primaries.symm
  | some primary =>
      obtain ⟨present, _, able⟩ := inSync.subject subject
      have start : reconciler.Trail key primary world world :=
        ⟨⟨fun _ _ => .refl _ _, fun _ _ => rfl⟩, .inl rfl⟩
      obtain ⟨trail, inSyncNow⟩ := start.attempts lawful inSync subject disturbances inSync
      have direct := start.finish lawful inSync subject inSync
      have recovered := trail.finish lawful inSync subject inSyncNow
      exact direct.twins lawful able recovered

/-- Whatever calls of earlier passes for an app or for a service failed, a calm pass has the result
and leaves the stores that it would have had and left in their place. -/
theorem pass_recovers :
    (∀ (name : String) (world : World App) (key : Key) (disturbances : List Disturbance),
      world.InSync → (ofApps name).Recovers world key disturbances) ∧
    ∀ (name : String) (template : IngressTemplate) (world : World Service) (key : Key)
      (disturbances : List Disturbance),
      world.InSync → (ofServices name template).Recovers world key disturbances := by
  refine ⟨fun name world key disturbances inSync => ?_,
    fun name template world key disturbances inSync => ?_⟩
  · exact recovers (ofApps_lawful name) inSync disturbances
  · exact recovers (ofServices_lawful name template) inSync disturbances

/-- In the first pass nothing can be created, so the old deployment goes and no new one comes; in the
second one the status of the app cannot be written. -/
def troubles : List Disturbance :=
  [{ dependents := fun _ => { failures := { PerOp.all 0 with create := 1 } } },
    { primary := { replies := { PerOp.all [] with
        updateStatus := [.refuse (.transient "timeout")] } } }]

theorem pass_recovers_renamed :
    (renamedWorld.InSync ∧ (ofApps "app").Recovers renamedWorld ⟨some "ns", "web"⟩ troubles) ∧
      exposedWorld.InSync ∧
        (ofServices "service" {}).Recovers exposedWorld ⟨some "ns", "web"⟩ troubles := by
  refine ⟨⟨renamedWorld_inSync, ?_⟩, exposedWorld_inSync, ?_⟩
  · exact pass_recovers.1 "app" renamedWorld ⟨some "ns", "web"⟩ troubles renamedWorld_inSync
  · exact pass_recovers.2 "service" {} exposedWorld ⟨some "ns", "web"⟩ troubles exposedWorld_inSync

end Reconciler

end ReconcileLoop
