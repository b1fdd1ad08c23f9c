import ReconcileLoop.Proofs.Reconcile.Kinds

namespace ReconcileLoop

/-! # What a pass leads to

With caches that have caught up, a pass moves the dependents toward what its primary ordered, and
writes at most the status that follows from them (`Reconciler.pass_passed`). A calm pass succeeds
unless something stands in the way, and then all is as it was ordered (`Reconciler.pass_completed`); a
pass that finds it so changes nothing (`Reconciler.pass_idle`).
-/

variable {α σ : Type} [Primary α σ]

def StatusWritten (before after : Std.ExtTreeMap Key α) (key : Key) (primary : α) (status : σ) :
    Prop :=
  status ≠ Primary.status primary ∧ ∃ written,
    Store.StampOf (Primary.setStatus primary status) written ∧ after = before.insert key written

namespace World

variable {world : World α} {key : Key} {primary : α}

def primaries (world : World α) : Std.ExtTreeMap Key α := world.primary.api.store.objects

theorem InSync.subject (inSync : world.InSync) (subject : world.subject? key = some primary) :
    world.primaries[key]? = some primary ∧ Resource.key primary = .ok key ∧ CanOwn primary := by
  obtain ⟨cached, _⟩ := Option.filter_eq_some_iff.mp subject
  rw [inSync.primary.get?_eq] at cached
  have own := inSync.primary.keyed key primary cached
  exact ⟨cached, own, ⟨key, own⟩, inSync.identified key primary cached⟩

theorem InSync.ready {reconciler : Reconciler α σ} (inSync : world.InSync)
    (lawful : reconciler.Lawful) (able : CanOwn primary) :
    Dependent.Ready world primary reconciler.dependents :=
  ⟨lawful.templates, lawful.distinct, fun _ _ => inSync.dependents _, able⟩

theorem statusWritten_of_restated [LawfulPrimary α] {status : σ} {store : Store α} {made : α}
    (own : Resource.key primary = .ok key) (present : world.primaries[key]? = some primary)
    (differs : status ≠ Primary.status primary)
    (restated : world.primary.api.store.Restated (Primary.setStatus primary status) made store) :
    StatusWritten world.primaries store.objects key primary status := by
  obtain ⟨place, current, updated, named, found, replaced, stamp, objects⟩ := restated
  have same : Resource.key (Primary.setStatus primary status) = .ok key := by
    rw [Resource.key, LawfulPrimary.metadata_setStatus]
    exact own
  obtain rfl : place = key := Except.ok.inj (named.symm.trans same)
  obtain rfl : current = primary := Option.some.inj (found.symm.trans present)
  rw [LawfulPrimary.replaceStatus_setStatus current status differs] at replaced
  cases replaced
  exact ⟨differs, made, stamp, objects⟩

section

variable [DecidableEq σ]

theorem writeStatus_same {status : σ} (same : status = Primary.status primary) (mutated : Bool) :
    world.writeStatus primary status mutated =
      { result := .ok (), world, events := successEvents primary mutated } := by
  rw [writeStatus, if_pos same]

theorem writeStatus_dependents (status : σ) (mutated : Bool) :
    (world.writeStatus primary status mutated).world.dependents = world.dependents := by
  unfold writeStatus
  split
  · rfl
  · split <;> rfl

theorem writeStatus_frame [LawfulResource α] (keyed : Keyed world.primaries) (status : σ)
    (mutated : Bool) :
    (world.writeStatus primary status mutated).world.dependents = world.dependents ∧
      (world.writeStatus primary status mutated).world.primary.cache = world.primary.cache ∧
      world.primary.api.store.Tells
        (world.writeStatus primary status mutated).world.primary.api.store := by
  refine ⟨writeStatus_dependents status mutated, ?_⟩
  unfold writeStatus
  split
  · exact ⟨rfl, .refl _⟩
  · split
    · next answer api called => exact ⟨rfl, ScriptedStore.updateStatus_tells called keyed⟩
    · next error api called => exact ⟨rfl, ScriptedStore.updateStatus_tells called keyed⟩

variable [LawfulPrimary α]

theorem writeStatus_objects (own : Resource.key primary = .ok key)
    (present : world.primaries[key]? = some primary) (status : σ) (mutated : Bool) :
    (world.writeStatus primary status mutated).world.primaries = world.primaries ∨
      StatusWritten world.primaries (world.writeStatus primary status mutated).world.primaries key
        primary status := by
  unfold writeStatus
  split
  · exact .inl rfl
  · next differs =>
      split
      · next answer api called =>
          rcases ScriptedStore.updateStatus_cases called with ⟨⟨_, failed⟩, _⟩ | ⟨made, _, restated⟩
          · contradiction
          · exact .inr (statusWritten_of_restated own present differs restated)
      · next error api called =>
          rcases ScriptedStore.updateStatus_cases called with ⟨_, same⟩ | ⟨_, impossible, _⟩
          · exact .inl same
          · contradiction

theorem writeStatus_calm (own : Resource.key primary = .ok key)
    (present : world.primaries[key]? = some primary) (calm : world.primary.api.Calm) (status : σ)
    (mutated : Bool) :
    (world.writeStatus primary status mutated).result = .ok () ∧
      (status ≠ Primary.status primary →
        StatusWritten world.primaries (world.writeStatus primary status mutated).world.primaries key
          primary status) := by
  have same : Resource.key (Primary.setStatus primary status) = .ok key := by
    rw [Resource.key, LawfulPrimary.metadata_setStatus]
    exact own
  unfold writeStatus
  split
  · next unchanged => exact ⟨rfl, fun differs => absurd unchanged differs⟩
  · next differs =>
      have replaced := LawfulPrimary.replaceStatus_setStatus primary status differs
      split
      · next answer api called =>
          refine ⟨rfl, fun _ => ?_⟩
          rcases ScriptedStore.updateStatus_cases called with ⟨⟨_, failed⟩, _⟩ | ⟨made, _, restated⟩
          · contradiction
          · exact statusWritten_of_restated own present differs restated
      · next error api called =>
          obtain ⟨made, done⟩ := ScriptedStore.updateStatus_calm called same present replaced calm
          contradiction

end

theorem writeStatus_keeps_calm [DecidableEq σ] (calm : world.Calm) (status : σ) (mutated : Bool) :
    (world.writeStatus primary status mutated).world.Calm := by
  unfold writeStatus
  split
  · exact calm
  · split <;>
      · next called => exact ⟨calm.primary.of_updateStatus called, calm.dependents⟩

theorem Calm.of_permits {before after : World α} (calm : before.Calm)
    (permits : before.Permits after primary) (same : after.primary = before.primary) :
    after.Calm where
  primary := same ▸ calm.primary
  dependents type := by
    obtain ⟨_, _, edited, _⟩ := permits type
    exact edited.calm (calm.dependents type)

theorem Calm.absorb {after : World α} (calm : after.Calm) (before : World α) :
    (before.absorb after).Calm where
  primary := calm.primary
  dependents type := by
    rw [World.absorb, PerKind.get_ofFun]
    exact calm.dependents type

theorem stored_congr {other : World α} (same : other.dependents = world.dependents)
    (type : BuiltIn) : other.stored type = world.stored type := by
  rw [stored, same, stored]

theorem Told.congr {before other : World α} (told : before.Told world)
    (same : other.dependents = world.dependents) : before.Told other where
  caches type := by rw [same]; exact told.caches type
  tells type := by rw [same]; exact told.tells type

theorem Toward.congr {before other : World α} {kinds : List (Dependent α σ)}
    (toward : before.Toward world primary kinds) (same : other.dependents = world.dependents) :
    before.Toward other primary kinds where
  moved dependent member := by
    rw [stored_congr same]
    exact toward.moved dependent member
  others type outside := (stored_congr same type).trans (toward.others type outside)

end World

theorem Dependent.found?_congr {world other : World α} {primary : α}
    (same : ∀ type, other.stored type = world.stored type) :
    (found? other primary : (dependent : Dependent α σ) → Option (Manifest dependent.type)) =
      found? world primary := by
  funext dependent
  rw [found?, same, found?]

namespace Reconciler

/-- The status of a primary after a look at its dependents. -/
def observed (reconciler : Reconciler α σ) (world : World α) (primary : α) : σ :=
  Dependent.reportAll (Dependent.found? world primary) reconciler.dependents
    (Primary.status primary)

/-- Nothing was in the way, what is wanted is there, and the status that follows was written. -/
structure Reported (reconciler : Reconciler α σ) (key : Key) (primary : α)
    (before after : World α) : Prop where
  free : ∀ dependent ∈ reconciler.dependents, dependent.obstacle? before primary = none
  there : ∀ dependent ∈ reconciler.dependents, ∀ place object,
    dependent.template.wanted primary = some (place, object) →
      ∃ held, (after.stored dependent.type)[place]? = some held
  written : StatusWritten before.primaries after.primaries key primary
    (reconciler.observed after primary)

/-- What a pass leads to, whatever calls fail. -/
structure Passed (reconciler : Reconciler α σ) (key : Key) (primary : α) (before after : World α) :
    Prop where
  told : before.Told after
  toward : before.Toward after primary (Dependent.reached before primary reconciler.dependents)
  cache : after.primary.cache = before.primary.cache
  tells : before.primary.api.store.Tells after.primary.api.store
  status : after.primaries = before.primaries ∨ reconciler.Reported key primary before after

theorem Passed.inSync {reconciler : Reconciler α σ} {world after : World α} {key : Key} {primary : α}
    (passed : reconciler.Passed key primary world after)
    (inSync : world.InSync) : (world.absorb after).InSync where
  primary := inSync.primary.absorb passed.cache passed.tells
  identified := by
    change Store.Identified after.primaries
    rcases passed.status with same | ⟨_, _, _, written, stamp, objects⟩
    · rw [same]
      exact inSync.identified
    · rw [objects]
      exact Store.Identified.insert inSync.identified stamp key
  dependents type := by
    rw [World.absorb, PerKind.get_ofFun]
    exact (inSync.dependents type).absorb (passed.told.caches type) (passed.told.tells type)

theorem observed_congr (reconciler : Reconciler α σ) {world other : World α} (primary : α)
    (same : ∀ type, other.stored type = world.stored type) :
    reconciler.observed other primary = reconciler.observed world primary := by
  rw [observed, Dependent.found?_congr same, observed]

variable [DecidableEq σ] {reconciler : Reconciler α σ} {world : World α} {key : Key} {primary : α}

theorem pass_of_none (reconciler : Reconciler α σ) (gone : world.subject? key = none) :
    reconciler.pass world key = { result := .ok (), world } := by
  simp only [pass, gone]

theorem pass_phases (reconciler : Reconciler α σ) (subject : world.subject? key = some primary) :
    ∃ result after,
      Dependent.syncAll world primary (Primary.status primary) reconciler.dependents =
        (result, after) ∧
      ((∃ error, result = .error error ∧ reconciler.pass world key =
          { result := .error error, world := after
            events := World.failureEvents primary error }) ∨
        ∃ mutated status, result = .ok (mutated, status) ∧
          reconciler.pass world key = after.writeStatus primary status mutated) := by
  cases ran : Dependent.syncAll world primary (Primary.status primary) reconciler.dependents with
  | mk result after =>
      refine ⟨result, after, rfl, ?_⟩
      unfold pass
      simp only [subject, ran]
      cases result with
      | error error => exact .inl ⟨error, rfl, rfl⟩
      | ok found => exact .inr ⟨found.1, found.2, rfl, rfl⟩

theorem pass_keeps_calm (reconciler : Reconciler α σ) (calm : world.Calm) (key : Key) :
    (reconciler.pass world key).world.Calm := by
  cases subject : world.subject? key with
  | none =>
      rw [pass_of_none reconciler subject]
      exact calm
  | some primary =>
      obtain ⟨result, after, ran, phase⟩ := pass_phases reconciler subject
      have calmed := calm.of_permits (Dependent.syncAll_permits ran).1 (Dependent.syncAll_primary ran)
      rcases phase with ⟨_, _, passed⟩ | ⟨mutated, status, _, passed⟩
      · rw [passed]
        exact calmed
      · rw [passed]
        exact World.writeStatus_keeps_calm calmed status mutated

/-- A pass that finds all as it was ordered, and reported, changes nothing and tells nobody. -/
theorem pass_idle (lawful : reconciler.Lawful) (inSync : world.InSync)
    (subject : world.subject? key = some primary)
    (tidy : ∀ dependent ∈ reconciler.dependents,
      (dependent.order primary).Tidy (world.stored dependent.type))
    (free : ∀ dependent ∈ reconciler.dependents, dependent.obstacle? world primary = none)
    (reported : reconciler.observed world primary = Primary.status primary) :
    reconciler.pass world key = { result := .ok (), world, events := [] } := by
  obtain ⟨_, _, able⟩ := inSync.subject subject
  have idle := Dependent.syncAll_idle (inSync.ready lawful able) tidy free (Primary.status primary)
  unfold pass
  simp only [subject, idle]
  exact World.writeStatus_same reported false

variable [LawfulPrimary α]

theorem pass_passed (lawful : reconciler.Lawful) (inSync : world.InSync)
    (subject : world.subject? key = some primary) :
    reconciler.Passed key primary world (reconciler.pass world key).world := by
  obtain ⟨present, own, able⟩ := inSync.subject subject
  obtain ⟨result, after, ran, phase⟩ := pass_phases reconciler subject
  have ready := inSync.ready lawful able
  have kept := Dependent.syncAll_primary ran
  obtain ⟨told, toward⟩ := Dependent.syncAll_toward ready ran
  have same : after.primaries = world.primaries := by rw [World.primaries, kept, World.primaries]
  rcases phase with ⟨error, rfl, passed⟩ | ⟨mutated, status, rfl, passed⟩
  · rw [passed]
    refine ⟨told, toward, ?_, ?_, .inl same⟩
    · exact congrArg Access.cache kept
    · rw [kept]
      exact .refl _
  · have keyed : Keyed after.primaries := same ▸ inSync.primary.keyed
    obtain ⟨dependents, cache, tells⟩ := World.writeStatus_frame keyed status mutated
    have there : after.primaries[key]? = some primary := same ▸ present
    obtain ⟨free, wanted, reported⟩ := Dependent.syncAll_reports ready ran
    rw [passed]
    refine ⟨told.congr dependents, toward.congr dependents, ?_, ?_, ?_⟩
    · rw [cache, kept]
    · rw [← kept]
      exact tells
    · rcases World.writeStatus_objects own there status mutated with unchanged | written
      · exact .inl (unchanged.trans same)
      · have follows : status = reconciler.observed
            (after.writeStatus primary status mutated).world primary := by
          rw [observed_congr reconciler primary (World.stored_congr dependents)]
          exact reported
        refine .inr ⟨free, fun dependent member place object asked => ?_, ?_⟩
        · rw [World.stored_congr dependents]
          exact wanted dependent member place object asked
        · rw [← follows, ← same]
          exact written

structure Completed (reconciler : Reconciler α σ) (key : Key) (primary : α) (before : World α)
    (outcome : PassOutcome α) : Prop where
  tidy : ∀ dependent ∈ Dependent.reached before primary reconciler.dependents,
    (dependent.order primary).Tidy (outcome.world.stored dependent.type)
  result : FailsFor (Dependent.firstObstacle? before primary reconciler.dependents) outcome.result
  written : Dependent.firstObstacle? before primary reconciler.dependents = none →
    reconciler.observed outcome.world primary ≠ Primary.status primary →
      StatusWritten before.primaries outcome.world.primaries key primary
        (reconciler.observed outcome.world primary)

theorem pass_completed (lawful : reconciler.Lawful) (inSync : world.InSync) (calm : world.Calm)
    (subject : world.subject? key = some primary) :
    reconciler.Completed key primary world (reconciler.pass world key) := by
  obtain ⟨present, own, able⟩ := inSync.subject subject
  obtain ⟨result, after, ran, phase⟩ := pass_phases reconciler subject
  have ready := inSync.ready lawful able
  have kept := Dependent.syncAll_primary ran
  obtain ⟨tidy, judged⟩ :=
    Dependent.syncAll_calm ready (fun dependent _ => calm.dependents dependent.type) ran
  rcases phase with ⟨error, rfl, passed⟩ | ⟨mutated, status, rfl, passed⟩
  · rw [passed]
    refine ⟨tidy, judged.error_congr, fun free => ?_⟩
    rw [free] at judged
    obtain ⟨_, impossible⟩ := judged
    contradiction
  · have same : after.primaries = world.primaries := by rw [World.primaries, kept, World.primaries]
    have keyed : Keyed after.primaries := same ▸ inSync.primary.keyed
    have there : after.primaries[key]? = some primary := same ▸ present
    have calmPrimary : after.primary.api.Calm := kept ▸ calm.primary
    obtain ⟨dependents, _, _⟩ := World.writeStatus_frame keyed status mutated
    obtain ⟨done, written⟩ := World.writeStatus_calm own there calmPrimary status mutated
    have follows : status = reconciler.observed
        (after.writeStatus primary status mutated).world primary := by
      rw [observed_congr reconciler primary (World.stored_congr dependents)]
      exact (Dependent.syncAll_reports ready ran).2.2
    rw [passed]
    refine ⟨fun dependent member => ?_, ?_, fun _ differs => ?_⟩
    · rw [World.stored_congr dependents]
      exact tidy dependent member
    · rw [judged.free]
      exact ⟨_, done⟩
    · rw [← follows] at differs ⊢
      rw [← same]
      exact written differs

end Reconciler

/-! A pass may find the primary with another status than an earlier one did; what the primary orders
is the same, and so is the status that follows. -/

namespace Reconciler.Lawful

variable {reconciler : Reconciler α σ} {world : World α} {primary later : α} [LawfulPrimary α]

theorem order_eq (lawful : reconciler.Lawful) (able : CanOwn primary)
    (renewed : Renewed primary later) {dependent : Dependent α σ}
    (member : dependent ∈ reconciler.dependents) :
    dependent.order later = dependent.order primary :=
  (lawful.templates dependent member).order_eq able renewed

theorem obstacle?_eq (lawful : reconciler.Lawful) (able : CanOwn primary)
    (renewed : Renewed primary later) :
    ∀ dependent ∈ reconciler.dependents,
      dependent.obstacle? world later = dependent.obstacle? world primary := by
  intro dependent member
  rw [Dependent.obstacle?, lawful.order_eq able renewed member, Dependent.obstacle?]

theorem found?_eq (lawful : reconciler.Lawful) (able : CanOwn primary)
    (renewed : Renewed primary later) :
    ∀ dependent ∈ reconciler.dependents,
      Dependent.found? world later dependent = Dependent.found? world primary dependent := by
  intro dependent member
  rw [Dependent.found?, lawful.order_eq able renewed member, Dependent.found?]

theorem observed_eq (lawful : reconciler.Lawful) (able : CanOwn primary)
    (renewed : Renewed primary later) :
    reconciler.observed world later = reconciler.observed world primary := by
  have same : ∀ dependent ∈ reconciler.dependents, ∀ status,
      dependent.template.report (Dependent.found? world later dependent) status =
        dependent.template.report (Dependent.found? world primary dependent) status := by
    intro dependent member status
    rw [lawful.found?_eq able renewed dependent member]
  calc reconciler.observed world later
    _ = Dependent.reportAll (Dependent.found? world later) reconciler.dependents
          (Primary.status primary) := lawful.covered _ _ _
    _ = reconciler.observed world primary := Dependent.reportAll_congr same _

end Reconciler.Lawful

namespace World

variable {world : World α} {key : Key}

theorem InSync.subject?_eq (inSync : world.InSync) (key : Key) :
    world.subject? key = world.primaries[key]?.filter fun primary =>
      (Resource.metadata primary).deletionTimestamp.isNone := by
  rw [subject?, inSync.primary.get?_eq, primaries]

theorem InSync.absorb_self (inSync : world.InSync) : (world.absorb world).InSync where
  primary := inSync.primary.absorb rfl (.refl _)
  identified := inSync.identified
  dependents type := by
    rw [absorb, PerKind.get_ofFun]
    exact (inSync.dependents type).absorb rfl (.refl _)

theorem stored_absorb (before after : World α) (type : BuiltIn) :
    (before.absorb after).stored type = after.stored type := by
  rw [stored, absorb, PerKind.get_ofFun]
  rfl

theorem primaries_absorb (before after : World α) :
    (before.absorb after).primaries = after.primaries :=
  rfl

theorem InSync.subject_renewed [LawfulPrimary α] {before : World α} {primary later : α}
    (subject : before.subject? key = some primary) (able : CanOwn primary)
    (renewed : Renewed primary later) (inSync : world.InSync)
    (present : world.primaries[key]? = some later) : world.subject? key = some later := by
  obtain ⟨_, staying⟩ := Option.filter_eq_some_iff.mp subject
  obtain ⟨version, metadata⟩ := renewed.metadata_eq able
  rw [inSync.subject?_eq, present, Option.filter_eq_some_iff]
  exact ⟨rfl, by rw [metadata]; exact staying⟩

end World

theorem StatusWritten.later [LawfulPrimary α] {before after : Std.ExtTreeMap Key α} {key : Key}
    {primary : α} {status : σ} (written : StatusWritten before after key primary status) :
    ∃ later, Renewed primary later ∧ after[key]? = some later ∧ Primary.status later = status := by
  obtain ⟨_, later, stamp, objects⟩ := written
  refine ⟨later, .inr ⟨_, stamp⟩, by rw [objects, Std.ExtTreeMap.getElem?_insert_self], ?_⟩
  obtain ⟨fresh, version, rfl⟩ := stamp
  rw [LawfulPrimary.status_withMetadata, LawfulPrimary.status_setStatus]

namespace Reconciler

variable [LawfulPrimary α] {reconciler : Reconciler α σ} {world : World α} {key : Key} {primary : α}

theorem Completed.later {outcome : PassOutcome α}
    (completed : reconciler.Completed key primary world outcome)
    (passed : reconciler.Passed key primary world outcome.world)
    (present : world.primaries[key]? = some primary)
    (free : Dependent.firstObstacle? world primary reconciler.dependents = none) :
    ∃ later, Renewed primary later ∧ outcome.world.primaries[key]? = some later ∧
      Primary.status later = reconciler.observed outcome.world primary := by
  rcases passed.status with same | reported
  · by_cases observed : reconciler.observed outcome.world primary = Primary.status primary
    · exact ⟨primary, .inl rfl, same ▸ present, observed.symm⟩
    · exact (completed.written free observed).later
  · exact reported.written.later

end Reconciler

end ReconcileLoop
