import ReconcileLoop.Proofs.Reconcile.Converged

namespace ReconcileLoop

/-! # How a pass ends

A pass that fails has left the objects of the primary alone, and has told of nothing but a name that
is taken. A pass that succeeds has brought every kind in line before it wrote the status, which it
does at most once, and it tells so if there was anything to do (`Reconciler.pass_outcome`). That a
kind says that it changed something means that its store was edited (`Access.sync_grew`); what was
gone already, or there already, is no edit.
-/

namespace Store

variable {α : Type}

/-- Whether the feed of a store has become longer. -/
def Grew (before after : Store α) : Prop := before.feed.length < after.feed.length

theorem not_grew_self (store : Store α) : ¬store.Grew store := Nat.lt_irrefl _

theorem Edited.length_feed {before after : Store α} {edits : List (Edit α)}
    (run : before.Edited edits after) :
    after.feed.length = before.feed.length + edits.length := by
  rw [run.feed, List.length_append, List.length_map]

theorem Edited.grew_iff {before after : Store α} {edits : List (Edit α)}
    (run : before.Edited edits after) : before.Grew after ↔ edits ≠ [] := by
  rw [Grew, run.length_feed, ← List.length_pos_iff]
  omega

theorem Edited.not_grew {before after : Store α} (run : before.Edited [] after) :
    ¬before.Grew after := by
  simp [run.grew_iff]

theorem Edited.grew_trans {before middle after : Store α} {first second : List (Edit α)}
    (start : before.Edited first middle) (finish : middle.Edited second after) :
    before.Grew after ↔ before.Grew middle ∨ middle.Grew after := by
  have one := start.length_feed
  have other := finish.length_feed
  unfold Grew
  omega

end Store

namespace ScriptedStore

variable {δ : Type} [Resource δ]

theorem deleteAll_grew {api after : ScriptedStore δ} {dependents : List δ} {deleted : Bool}
    (ran : api.deleteAll dependents = (.ok deleted, after)) :
    deleted = true ↔ api.store.Grew after.store := by
  induction dependents generalizing api deleted with
  | nil =>
      cases ran
      simp [Store.not_grew_self]
  | cons dependent rest ih =>
      rcases deleteAll_cons ran with
        ⟨_, _, impossible, _⟩ | ⟨key, answer, next, _, tried, phase⟩
      · contradiction
      · rcases phase with ⟨outcome, rfl, others, same⟩ | ⟨error, rfl, _, others⟩ |
          ⟨_, _, _, impossible, _⟩
        · cases outcome with
          | error error => cases same
          | ok more =>
              cases same
              obtain ⟨edits, second, _⟩ := deleteAll_edited others
              rcases delete_edited tried with ⟨gone, _, _, first⟩ | ⟨⟨_, impossible⟩, _⟩
              · rw [first.store.grew_trans second.store, first.store.grew_iff]
                simp
              · contradiction
        · obtain ⟨edits, second, _⟩ := deleteAll_edited others
          rcases delete_edited tried with ⟨_, impossible, _⟩ | ⟨_, first⟩
          · contradiction
          · rw [first.store.grew_trans second.store, ih others]
            simp [first.store.not_grew]
        · contradiction

theorem ensure_grew {api after : ScriptedStore δ} {key : Key} {desired found : δ} {created : Bool}
    (ran : api.ensure key desired = (.ok (found, created), after)) :
    created = true ↔ api.store.Grew after.store := by
  obtain ⟨answer, next, called, phase⟩ := ensure_phases ran
  rcases create_edited called with ⟨_, made, rfl, _, _, first⟩ | ⟨⟨error, rfl⟩, first⟩
  · rcases phase with ⟨_, _, _, _, looked, same, _⟩ | ⟨_, impossible, _⟩
    · cases same
      simp [(first.trans (get_edited looked)).store.grew_iff]
    · contradiction
  · rcases phase with ⟨_, _, _, impossible, _⟩ | ⟨_, _, ⟨_, looked, same⟩ | ⟨⟨_, impossible⟩, _⟩⟩
    · contradiction
    · cases same
      simp [(first.trans (get_edited looked)).store.grew_iff]
    · contradiction

/-- Calls that write a status, one after the other, each with the object it was given and the answer
that it got. -/
inductive StatusCalls : ScriptedStore δ → List (δ × Except StoreError δ) → ScriptedStore δ → Prop where
  | none {api} : StatusCalls api [] api
  | call {api object answer middle calls after}
      (called : api.updateStatus object = (answer, middle))
      (later : StatusCalls middle calls after) : StatusCalls api ((object, answer) :: calls) after

end ScriptedStore

variable {α σ : Type} [Primary α σ]

namespace Access

variable {δ : Type} [Resource δ] {access after : Access δ} {template : Template α σ δ} {primary : α}
  {status observed : σ} {changed : Bool}

theorem actual_grew {key : Key} {desired found : δ} {created : Bool} {api : ScriptedStore δ}
    (looked : access.actual key desired = (.ok (found, created), api)) :
    created = true ↔ access.api.store.Grew api.store := by
  unfold actual at looked
  split at looked
  · cases looked
    simp [Store.not_grew_self]
  · exact ScriptedStore.ensure_grew looked

theorem provide_grew {mutated : Bool} {desired : δ}
    (ran : access.provide template primary status mutated desired = (.ok (changed, observed), after)) :
    changed = true ↔ mutated = true ∨ access.api.store.Grew after.api.store := by
  unfold provide at ran
  split at ran
  · cases ran
  · split at ran
    · cases ran
    · next found created api looked =>
        split at ran
        · cases ran
          rw [Bool.or_eq_true, actual_grew looked]
        · cases ran

theorem sync_grew (ran : access.sync template primary status = (.ok (changed, observed), after)) :
    changed = true ↔ access.api.store.Grew after.api.store := by
  unfold sync at ran
  split at ran
  · cases ran
  · next desired asked =>
      simp only at ran
      split at ran
      · cases ran
      · next deleted api pruned =>
          have first := ScriptedStore.deleteAll_grew pruned
          cases desired with
          | none =>
              cases ran
              exact first
          | some object =>
              obtain ⟨removed, one, _⟩ := ScriptedStore.deleteAll_edited pruned
              obtain ⟨_, made, other, _⟩ := provide_edited ran
              rw [one.store.grew_trans other.store, ← first]
              exact provide_grew ran

end Access

namespace World

/-- Whether dependents were created or deleted between two states of the stores. -/
def Mutated (before after : World α) : Prop :=
  ∃ type edits, edits ≠ [] ∧
    (before.dependents.get type).api.Edited edits (after.dependents.get type).api

variable {before middle after : World α} {primary : α}

theorem Permits.mutated_iff (run : before.Permits after primary) :
    before.Mutated after ↔ ∃ type,
      (before.dependents.get type).api.store.Grew (after.dependents.get type).api.store := by
  constructor
  · rintro ⟨type, edits, some, edited⟩
    exact ⟨type, edited.store.grew_iff.mpr some⟩
  · rintro ⟨type, grew⟩
    obtain ⟨_, edits, edited, _⟩ := run type
    exact ⟨type, edits, edited.store.grew_iff.mp grew, edited⟩

theorem Permits.mutated_trans (start : before.Permits middle primary)
    (finish : middle.Permits after primary) :
    before.Mutated after ↔ before.Mutated middle ∨ middle.Mutated after := by
  rw [(start.trans finish).mutated_iff, start.mutated_iff, finish.mutated_iff, ← exists_or]
  refine exists_congr fun type => ?_
  obtain ⟨_, first, one, _⟩ := start type
  obtain ⟨_, second, other, _⟩ := finish type
  exact one.store.grew_trans other.store

theorem not_mutated_self (world : World α) : ¬world.Mutated world := by
  rintro ⟨type, edits, some, edited⟩
  exact Store.not_grew_self _ (edited.store.grew_iff.mpr some)

end World

namespace Dependent

/-- Kinds that were brought in line one after the other, each without a failure. -/
inductive Synced (primary : α) : List (Dependent α σ) → World α → σ → World α → σ → Prop where
  | done {world status} : Synced primary [] world status world status
  | next {dependent rest world status changed observed middle after final}
      (synced : dependent.sync world primary status = (.ok (changed, observed), middle))
      (later : Synced primary rest middle observed after final) :
      Synced primary (dependent :: rest) world status after final

variable {world after : World α} {primary : α} {status final : σ} {mutated : Bool}

theorem sync_mutated {dependent : Dependent α σ} {changed : Bool} {observed : σ}
    (ran : dependent.sync world primary status = (.ok (changed, observed), after)) :
    changed = true ↔ world.Mutated after := by
  rw [(sync_permits ran).1.mutated_iff]
  rw [sync_eq] at ran
  cases synced :
      (world.dependents.get dependent.type).sync dependent.template primary status with
  | mk outcome access =>
      rw [synced] at ran
      cases ran
      rw [Access.sync_grew synced]
      constructor
      · intro grew
        refine ⟨dependent.type, ?_⟩
        rw [World.get_withAccess_same]
        exact grew
      · rintro ⟨type, grew⟩
        by_cases same : type = dependent.type
        · subst same
          rw [World.get_withAccess_same] at grew
          exact grew
        · rw [World.get_withAccess_other same] at grew
          exact absurd grew (Store.not_grew_self _)

theorem syncAll_mutated {kinds : List (Dependent α σ)}
    (ran : syncAll world primary status kinds = (.ok (mutated, final), after)) :
    Synced primary kinds world status after final ∧ (mutated = true ↔ world.Mutated after) := by
  induction kinds generalizing world status mutated with
  | nil =>
      cases ran
      exact ⟨.done, by simp [World.not_mutated_self]⟩
  | cons dependent rest ih =>
      obtain ⟨outcome, access, ran_first, ⟨_, _, impossible, _⟩ |
        ⟨changed, observed, later, rfl, others, ⟨_, _, impossible⟩ | ⟨more, ends, rfl, same⟩⟩⟩ :=
        syncAll_cons ran
      · contradiction
      · contradiction
      · cases same
        have first : dependent.sync world primary status =
            (.ok (changed, observed), world.withAccess dependent.type access) := by
          rw [sync_eq, ran_first]
        obtain ⟨synced, rest_mutated⟩ := ih others
        refine ⟨.next first synced, ?_⟩
        rw [Bool.or_eq_true, sync_mutated first, rest_mutated,
          (sync_permits first).1.mutated_trans (syncAll_permits others).1]

end Dependent

namespace Reconciler

/-- Whether one of some calls wrote a status. -/
def Wrote (calls : List (α × Except StoreError α)) : Prop :=
  ∃ object written, (object, .ok written) ∈ calls

/-- Whether one of some calls found nothing whose status it could write. -/
def Missed (calls : List (α × Except StoreError α)) : Prop :=
  ∃ object error, (object, .error error) ∈ calls ∧ error.isNotFound = true

/-- What a pass leaves behind that failed. -/
structure Failed (world : World α) (key : Key) (error : ReconcileError) (outcome : PassOutcome α) :
    Prop where
  primaries : outcome.world.primaries = world.primaries
  warned : ∀ kind taken ownerKind owner, error = .ownershipConflict kind taken ownerKind owner →
    ∃ primary, world.subject? key = some primary ∧
      outcome.events = [.nameTaken (Resource.kindName α) taken.name (.to primary)]
  silent : (∀ kind taken ownerKind owner, error ≠ .ownershipConflict kind taken ownerKind owner) →
    outcome.events = []

/-- What a pass leaves behind that succeeded: it led to a world in which every kind is in line and
the primary is untouched, and from there only the status was written, with so many calls. -/
structure Ended (reconciler : Reconciler α σ) (world : World α) (primary : α)
    (outcome : PassOutcome α) (synced : World α) (status : σ)
    (calls : List (α × Except StoreError α)) : Prop where
  inLine : Dependent.Synced primary reconciler.dependents world (Primary.status primary) synced
    status
  aside : synced.primary = world.primary
  after : outcome.world.dependents = synced.dependents
  wrote : synced.primary.api.StatusCalls calls outcome.world.primary.api
  once : calls.length ≤ 1
  given : ∀ call ∈ calls, call.1 = Primary.setStatus primary status
  kept : ¬Wrote calls → outcome.world.primaries = world.primaries
  announced : world.Mutated outcome.world ∨ Wrote calls → ¬Missed calls →
    outcome.events = [.synced (Resource.kindName α) (.to primary)]
  idle : ¬(world.Mutated outcome.world ∨ Wrote calls) → outcome.events = []
  missed : Missed calls → outcome.events = []

variable {reconciler : Reconciler α σ} {world after : World α} {key : Key} {primary : α} {status : σ}
  {mutated : Bool}

theorem failed_of_sync {error : ReconcileError} (subject : world.subject? key = some primary)
    (aside : after.primary = world.primary) :
    Failed world key error
      { result := .error error, world := after, events := World.failureEvents primary error } where
  primaries := by rw [World.primaries, aside, World.primaries]
  warned kind taken ownerKind owner conflict := by
    subst conflict
    exact ⟨primary, subject, rfl⟩
  silent other := by
    cases error with
    | ownershipConflict kind taken ownerKind owner =>
        exact absurd rfl (other kind taken ownerKind owner)
    | store cause => rfl
    | malformedKey fault => rfl
    | permanentFailure attempts cause => rfl

/-- A write of a status that is refused leaves the objects as they were. -/
theorem primaries_of_refused {object : α} {error : StoreError} {api : ScriptedStore α}
    (called : after.primary.api.updateStatus object = (.error error, api))
    (aside : after.primary = world.primary) : api.store.objects = world.primaries := by
  rcases ScriptedStore.updateStatus_cases called with ⟨_, same⟩ | ⟨_, impossible, _⟩
  · rw [same, aside, World.primaries]
  · contradiction

theorem ended_unwritten
    (inLine : Dependent.Synced primary reconciler.dependents world (Primary.status primary) after
      status)
    (changed : mutated = true ↔ world.Mutated after) (aside : after.primary = world.primary) :
    reconciler.Ended world primary
      { result := .ok (), world := after, events := World.successEvents primary mutated }
      after status [] where
  inLine := inLine
  aside := aside
  after := rfl
  wrote := .none
  once := Nat.zero_le _
  given := by simp
  kept _ := by rw [World.primaries, aside, World.primaries]
  announced did _ := by
    obtain moved | ⟨_, _, impossible⟩ := did
    · rw [changed.mpr moved, World.successEvents, if_pos rfl]
    · cases impossible
  idle nothing := by
    have still : ¬mutated = true := fun moved => nothing (.inl (changed.mp moved))
    rw [World.successEvents, if_neg still]
  missed := by simp [Missed]

theorem ended_written {written : α} {api : ScriptedStore α}
    (inLine : Dependent.Synced primary reconciler.dependents world (Primary.status primary) after
      status)
    (called : after.primary.api.updateStatus (Primary.setStatus primary status) = (.ok written, api))
    (aside : after.primary = world.primary) :
    reconciler.Ended world primary
      { result := .ok (), world := { after with primary := { after.primary with api } }
        events := World.successEvents primary true }
      after status [(Primary.setStatus primary status, .ok written)] where
  inLine := inLine
  aside := aside
  after := rfl
  wrote := .call called .none
  once := Nat.le_refl _
  given := by simp
  kept untouched := absurd ⟨_, _, List.mem_singleton.mpr rfl⟩ untouched
  announced _ _ := rfl
  idle nothing := absurd (.inr ⟨_, _, List.mem_singleton.mpr rfl⟩) nothing
  missed := by simp [Missed]

theorem ended_missed {error : StoreError} {api : ScriptedStore α}
    (inLine : Dependent.Synced primary reconciler.dependents world (Primary.status primary) after
      status)
    (called : after.primary.api.updateStatus (Primary.setStatus primary status) = (.error error, api))
    (gone : error.isNotFound = true) (aside : after.primary = world.primary) :
    reconciler.Ended world primary
      { result := .ok (), world := { after with primary := { after.primary with api } } }
      after status [(Primary.setStatus primary status, .error error)] where
  inLine := inLine
  aside := aside
  after := rfl
  wrote := .call called .none
  once := Nat.le_refl _
  given := by simp
  kept _ := primaries_of_refused called aside
  announced _ found := absurd ⟨_, _, List.mem_singleton.mpr rfl, gone⟩ found
  idle _ := rfl
  missed _ := rfl

theorem failed_refused {object : α} {error : StoreError} {api : ScriptedStore α}
    (called : after.primary.api.updateStatus object = (.error error, api))
    (aside : after.primary = world.primary) :
    Failed world key (.store error)
      { result := .error (.store error)
        world := { after with primary := { after.primary with api } } } where
  primaries := primaries_of_refused called aside
  warned _ _ _ _ conflict := by cases conflict
  silent _ := rfl

variable [DecidableEq σ]

theorem writeStatus_outcome (key : Key)
    (inLine : Dependent.Synced primary reconciler.dependents world (Primary.status primary) after
      status)
    (changed : mutated = true ↔ world.Mutated after) (aside : after.primary = world.primary) :
    (∀ error, (after.writeStatus primary status mutated).result = .error error →
      Failed world key error (after.writeStatus primary status mutated)) ∧
    ((after.writeStatus primary status mutated).result = .ok () →
      ∃ calls, reconciler.Ended world primary (after.writeStatus primary status mutated) after status
        calls) := by
  unfold World.writeStatus
  split
  · exact ⟨fun _ failed => (by cases failed), fun _ => ⟨_, ended_unwritten inLine changed aside⟩⟩
  · split
    · next written api called =>
        exact ⟨fun _ failed => (by cases failed), fun _ => ⟨_, ended_written inLine called aside⟩⟩
    · next error api called =>
        cases gone : error.isNotFound with
        | true =>
            exact ⟨fun _ failed => (by cases failed),
              fun _ => ⟨_, ended_missed inLine called gone aside⟩⟩
        | false =>
            refine ⟨fun other failed => ?_, fun done => by cases done⟩
            cases failed
            exact failed_refused called aside

/-- Every pass either fails, and then leaves the objects of the primary alone and tells of nothing
but a name that is taken; or it succeeds, and then has brought all kinds in line and after that has
written the status at most once. It tells so exactly if it did something, unless the primary was gone
when the status was to be written. -/
theorem pass_outcome (reconciler : Reconciler α σ) (world : World α) (key : Key) :
    (∀ error, (reconciler.pass world key).result = .error error →
      Failed world key error (reconciler.pass world key)) ∧
    ((reconciler.pass world key).result = .ok () →
      (world.subject? key = none ∧ (reconciler.pass world key).world = world ∧
        (reconciler.pass world key).events = []) ∨
      ∃ primary synced status calls, world.subject? key = some primary ∧
        reconciler.Ended world primary (reconciler.pass world key) synced status calls) := by
  cases subject : world.subject? key with
  | none =>
      rw [pass_of_none reconciler subject]
      exact ⟨fun error failed => (by cases failed), fun _ => .inl ⟨rfl, rfl, rfl⟩⟩
  | some primary =>
      obtain ⟨result, after, ran, phase⟩ := pass_phases reconciler subject
      have aside := Dependent.syncAll_primary ran
      rcases phase with ⟨error, rfl, passed⟩ | ⟨mutated, status, rfl, passed⟩
      · rw [passed]
        refine ⟨fun other failed => ?_, fun done => by cases done⟩
        cases failed
        exact failed_of_sync subject aside
      · obtain ⟨inLine, changed⟩ := Dependent.syncAll_mutated ran
        obtain ⟨fails, ends⟩ := writeStatus_outcome key inLine changed aside
        rw [passed]
        refine ⟨fails, fun done => .inr ?_⟩
        obtain ⟨calls, ended⟩ := ends done
        exact ⟨primary, after, status, calls, rfl, ended⟩

/-- Somebody else's ingress has the name that the service wants for its own. -/
def opposedWorld : World Service :=
  exposedWorld.withAccess .ingress { api := { store := (({} : Store Ingress).put foreign).2 } }

/-- The app is gone from its store, and the cache does not know yet. -/
def forgottenWorld : World App :=
  { renamedWorld with primary := { renamedWorld.primary with api := {} } }

/-- The service that is opposed fails for the conflict and is warned, and the app that was renamed ends
well and is told so. If it is gone by then it ends well too, but nobody is told of the dependents that
were changed. -/
theorem pass_outcome_opposed :
    (∃ outcome, outcome = (ofServices "service" {}).pass opposedWorld ⟨some "ns", "web"⟩ ∧
      Failed opposedWorld ⟨some "ns", "web"⟩
        (.ownershipConflict "Ingress" ⟨some "ns", "web"⟩ "Service" "web") outcome ∧
      outcome.events.map (·.reason) = ["ErrResourceExists"]) ∧
    (∃ app outcome synced status calls,
      outcome = (ofApps "app").pass renamedWorld ⟨some "ns", "web"⟩ ∧
      (ofApps "app").Ended renamedWorld app outcome synced status calls ∧
      outcome.events.map (·.reason) = ["Synced"]) ∧
    ∃ app outcome synced status calls,
      outcome = (ofApps "app").pass forgottenWorld ⟨some "ns", "web"⟩ ∧
      (ofApps "app").Ended forgottenWorld app outcome synced status calls ∧
      outcome.events = [] := by
  have opposed := pass_outcome (ofServices "service" {}) opposedWorld ⟨some "ns", "web"⟩
  have renamed := pass_outcome (ofApps "app") renamedWorld ⟨some "ns", "web"⟩
  have forgotten := pass_outcome (ofApps "app") forgottenWorld ⟨some "ns", "web"⟩
  refine ⟨⟨_, rfl, opposed.1 _ rfl, rfl⟩, ?_, ?_⟩
  · rcases renamed.2 rfl with ⟨impossible, _⟩ | ⟨app, synced, status, calls, _, ended⟩
    · cases impossible
    · exact ⟨app, _, synced, status, calls, rfl, ended, rfl⟩
  · rcases forgotten.2 rfl with ⟨impossible, _⟩ | ⟨app, synced, status, calls, _, ended⟩
    · cases impossible
    · exact ⟨app, _, synced, status, calls, rfl, ended, rfl⟩

end Reconciler

end ReconcileLoop
