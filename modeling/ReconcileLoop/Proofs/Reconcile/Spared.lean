import ReconcileLoop.Proofs.Cache.Replay
import ReconcileLoop.Proofs.Reconcile.Upkeep
import ReconcileLoop.Reconcile.Pass

namespace ReconcileLoop

/-! # Whose dependents a pass removes

A pass decides on the cached copies what to delete, and deletes by key whatever is under the key by
then. So the objects that it removes are those of its primary exactly if nobody else's object has
taken the key of a dependent that the cache still shows. Apart from that a pass only creates
objects where there are none, and they belong to the primary.
-/

namespace Store

variable {α : Type}

/-- The states of a store that others write to. -/
inductive Written [Resource α] : Store α → Prop where
  | empty : Written {}
  | put {store : Store α} (earlier : Written store) (object : α) : Written (store.put object).2
  | remove {store : Store α} (earlier : Written store) (key : Key) : Written (store.remove key).2

def removed? : Delta α → Option α
  | .deleted gone => some gone
  | _ => none

def removals (before after : Store α) : List α :=
  (after.feed.drop before.feed.length).filterMap removed?

theorem Edited.mem_removals {before after : Store α} {edits : List (Edit α)}
    (run : before.Edited edits after) {gone : α} :
    gone ∈ before.removals after ↔ ∃ key, .removed key gone ∈ edits := by
  rw [removals, run.feed, List.drop_left, List.mem_filterMap]
  constructor
  · rintro ⟨delta, told, goes⟩
    obtain ⟨edit, member, rfl⟩ := List.mem_map.mp told
    cases edit with
    | removed key object =>
        cases goes
        exact ⟨key, member⟩
    | created key made => contradiction
  · rintro ⟨key, member⟩
    exact ⟨_, List.mem_map.mpr ⟨_, member, rfl⟩, rfl⟩

theorem Edited.mem_removals_trans {before middle after : Store α} {first second : List (Edit α)}
    (start : before.Edited first middle) (finish : middle.Edited second after) {gone : α} :
    gone ∈ before.removals after ↔
      gone ∈ before.removals middle ∨ gone ∈ middle.removals after := by
  rw [(start.trans finish).mem_removals, start.mem_removals, finish.mem_removals]
  simp only [List.mem_append, exists_or]

end Store

variable {α σ : Type} [Primary α σ]

section

variable {δ : Type} [Resource δ]

theorem isControlledBy_adopted {primary : α} {owner : OwnerReference}
    (controls : OwnerReference.toController? primary = some owner) (rendered : δ) :
    (Resource.metadata (Template.adopted primary owner rendered)).isControlledBy primary = true := by
  unfold OwnerReference.toController? at controls
  split at controls
  · next name uid named identified =>
      cases controls
      simp [Metadata.isControlledBy, Metadata.controller?, Template.adopted, identified]
  · contradiction

namespace Access

/-- A cache that was told the first changes of its store, and perhaps not all of them yet. -/
def Lags (access : Access δ) : Prop :=
  access.api.store.Written ∧ ∃ seen epoch, access.cache =
    { (({} : Index δ).steps (access.api.store.feed.take seen)).1.freeze with epoch }

theorem Lags.keyed {access : Access δ} (lags : access.Lags) : Keyed access.cache.items := by
  obtain ⟨_, seen, epoch, told⟩ := lags
  have start : Keyed ({} : Index δ).items := Keyed.empty
  rw [told]
  exact (Index.steps_replay {} (access.api.store.feed.take seen) start).keyed start

/-- What a pass may do to a store of dependents: remove what is under the key of an object that the
cache shows as controlled by the primary, and create objects that the primary controls. -/
def Permits (access : Access δ) (primary : α) : Edit δ → Prop
  | .removed key _ => ∃ uid shown, (Resource.metadata primary).uid = some uid ∧
      shown ∈ access.cache.ownedBy uid ∧ Resource.key shown = .ok key
  | .created _ made => (Resource.metadata made).isControlledBy primary = true

/-- Nobody else's object is under the key of a dependent that is about to be deleted. -/
def Spares (access : Access δ) (primary : α) (keep : Option String) : Prop :=
  ∀ dependent ∈ access.stale primary keep, ∀ key, Resource.key dependent = .ok key →
    ∀ held, access.api.store.objects[key]? = some held →
      (Resource.metadata held).isControlledBy primary = true

theorem permits_of_stale {access : Access δ} {primary : α} {keep : Option String} {shown : δ}
    {key : Key} (stale : shown ∈ access.stale primary keep) (own : Resource.key shown = .ok key)
    (gone : δ) : access.Permits primary (.removed key gone) := by
  unfold Access.stale at stale
  split at stale
  · contradiction
  · next uid identified =>
      exact ⟨uid, shown, identified, (List.mem_filter.mp stale).1, own⟩

theorem named_of_stale {access : Access δ} (keyed : Keyed access.cache.items) {primary : α}
    {keep : Option String} :
    ∀ dependent ∈ access.stale primary keep, ∃ key, Resource.key dependent = .ok key := by
  intro dependent stale
  unfold Access.stale at stale
  split at stale
  · contradiction
  · obtain ⟨key, _, found⟩ := List.mem_filterMap.mp (List.mem_filter.mp stale).1
    exact ⟨key, keyed key dependent found⟩

theorem actual_edited {access : Access δ} {key : Key} {desired : δ} {api : ScriptedStore δ}
    {answer : Except ReconcileError (δ × Bool)} (looked : access.actual key desired = (answer, api)) :
    ∃ edits, access.api.Edited edits api ∧ ∀ edit ∈ edits, ∃ place made,
      edit = .created place made ∧ Resource.key desired = .ok place ∧
        Store.StampOf desired made := by
  unfold actual at looked
  split at looked
  · cases looked
    exact ⟨[], .refl _, by simp⟩
  · exact ScriptedStore.ensure_edited looked

theorem provide_edited {access after : Access δ} {template : Template α σ δ} {primary : α}
    {status : σ} {mutated : Bool} {desired : δ} {result : Except ReconcileError (Bool × σ)}
    (ran : access.provide template primary status mutated desired = (result, after)) :
    after.cache = access.cache ∧ ∃ edits, access.api.Edited edits after.api ∧
      ∀ edit ∈ edits, ∃ place made, edit = .created place made ∧
        Resource.key desired = .ok place ∧ Store.StampOf desired made := by
  unfold provide at ran
  split at ran
  · cases ran
    exact ⟨rfl, [], .refl _, by simp⟩
  · split at ran
    · next error api looked =>
        cases ran
        exact ⟨rfl, actual_edited looked⟩
    · next object created api looked =>
        split at ran
        · cases ran
          exact ⟨rfl, actual_edited looked⟩
        · cases ran
          exact ⟨rfl, actual_edited looked⟩

theorem adopted_of_desired {template : Template α σ δ} {primary : α} {object : δ}
    (asked : template.desired primary = .ok (some object)) :
    ∃ owner rendered, OwnerReference.toController? primary = some owner ∧
      object = Template.adopted primary owner rendered := by
  unfold Template.desired at asked
  split at asked
  · cases asked
  · next rendered _ =>
      split at asked
      · cases asked
      · next owner controls =>
          cases asked
          exact ⟨owner, rendered, controls, rfl⟩

def nameOf (desired : Option δ) : Option String :=
  desired.bind fun object => (Resource.metadata object).name

/-- To bring a kind in line is to fail at once, or to delete what is stale and then at most to
create what is desired. -/
theorem sync_cases {access after : Access δ} {template : Template α σ δ} {primary : α} {status : σ}
    {result : Except ReconcileError (Bool × σ)}
    (ran : access.sync template primary status = (result, after)) :
    ((∃ error, template.desired primary = .error error) ∧ after = access) ∨
    ∃ desired outcome api, template.desired primary = .ok desired ∧
      access.api.deleteAll (access.stale primary (nameOf desired)) = (outcome, api) ∧
      after.cache = access.cache ∧ ∃ edits, api.Edited edits after.api ∧
        ∀ edit ∈ edits, ∃ object place made, desired = some object ∧
          edit = .created place made ∧ Resource.key object = .ok place ∧
            Store.StampOf object made := by
  unfold sync at ran
  split at ran
  · next error failed =>
      cases ran
      exact .inl ⟨⟨error, failed⟩, rfl⟩
  · next desired asked =>
      refine .inr ⟨desired, ?_⟩
      simp only at ran
      split at ran
      · next error api deleted =>
          cases ran
          exact ⟨_, api, asked, deleted, rfl, [], .refl _, by simp⟩
      · next count api deleted =>
          cases desired with
          | none =>
              cases ran
              exact ⟨_, api, asked, deleted, rfl, [], .refl _, by simp⟩
          | some object =>
              obtain ⟨cache, edits, edited, creates⟩ := provide_edited ran
              refine ⟨_, api, asked, deleted, cache, edits, edited, fun edit member => ?_⟩
              obtain ⟨place, made, same, own, stamp⟩ := creates edit member
              exact ⟨object, place, made, rfl, same, own, stamp⟩

def SparesFor (access : Access δ) (template : Template α σ δ) (primary : α) : Prop :=
  ∀ desired, template.desired primary = .ok desired → access.Spares primary (nameOf desired)

theorem sync_edited {access after : Access δ} {template : Template α σ δ} {primary : α} {status : σ}
    {result : Except ReconcileError (Bool × σ)}
    (ran : access.sync template primary status = (result, after)) :
    after.cache = access.cache ∧ ∃ edits, access.api.Edited edits after.api ∧
      (∀ edit ∈ edits, access.Permits primary edit) ∧
      (access.SparesFor template primary → ∀ key gone, .removed key gone ∈ edits →
        (Resource.metadata gone).isControlledBy primary = true) := by
  rcases sync_cases ran with
    ⟨_, rfl⟩ | ⟨desired, outcome, api, asked, deleted, cache, made, second, creates⟩
  · exact ⟨rfl, [], .refl _, by simp, by simp⟩
  · obtain ⟨removed, first, removes⟩ := ScriptedStore.deleteAll_edited deleted
    refine ⟨cache, removed ++ made, first.trans second, fun edit member => ?_, ?_⟩
    · rcases List.mem_append.mp member with member | member
      · obtain ⟨shown, stale, key, gone, own, rfl⟩ := removes edit member
        exact permits_of_stale stale own gone
      · obtain ⟨object, place, created, rfl, rfl, _, stamp⟩ := creates edit member
        obtain ⟨owner, rendered, controls, rfl⟩ := adopted_of_desired asked
        exact stamp.isControlledBy_eq.trans (isControlledBy_adopted controls rendered)
    · intro spares key gone goes
      rcases List.mem_append.mp goes with member | member
      · obtain ⟨shown, stale, place, _, own, same⟩ := removes _ member
        cases same
        refine spares desired asked shown stale key own gone ?_
        refine first.store.objects.present_of_removed member fun object created => ?_
        obtain ⟨_, _, _, _, _, impossible⟩ := removes _ created
        contradiction
      · obtain ⟨_, _, _, _, impossible, _⟩ := creates _ member
        contradiction

theorem sparesFor_of_sync {access after : Access δ} {template : Template α σ δ} {primary : α}
    {status : σ} {result : Except ReconcileError (Bool × σ)}
    (ran : access.sync template primary status = (result, after)) (reliable : access.api.Reliable)
    (keyed : Keyed access.cache.items)
    (owned : ∀ gone ∈ access.api.store.removals after.api.store,
      (Resource.metadata gone).isControlledBy primary = true) :
    access.SparesFor template primary := by
  intro desired asked shown stale key own held present
  rcases sync_cases ran with
    ⟨⟨error, failed⟩, _⟩ | ⟨wanted, outcome, api, same, deleted, _, made, second, _⟩
  · rw [failed] at asked
    contradiction
  · obtain rfl : wanted = desired := by rw [same] at asked; exact Except.ok.inj asked
    obtain ⟨removed, first, _⟩ := ScriptedStore.deleteAll_edited deleted
    obtain ⟨count, rfl⟩ := ScriptedStore.deleteAll_reliable deleted reliable (named_of_stale keyed)
    have empty := ScriptedStore.deleteAll_absent_of_ok deleted reliable.replies shown stale key own
    refine owned held ?_
    -- What was there is gone after the deletes, so it is among what was removed.
    rcases first.store.objects.survives present with stays | goes
    · rw [empty] at stays
      contradiction
    · exact (first.trans second).store.mem_removals.mpr ⟨key, List.mem_append_left _ goes⟩

end Access

end

namespace Dependent

/-- What was said of one kind, of all the kinds that a pass gets to: each is judged by the world as
it is by then. -/
def Spare (world : World α) (primary : α) (status : σ) : List (Dependent α σ) → Prop
  | [] => True
  | dependent :: rest =>
      (world.dependents.get dependent.type).SparesFor dependent.template primary ∧
      ∀ changed observed after,
        dependent.sync world primary status = (.ok (changed, observed), after) →
        Spare after primary observed rest

end Dependent

namespace World

/-- Whether all that was removed between two states of the stores belongs to a primary. -/
def RemovesOwn (before after : World α) (primary : α) : Prop :=
  ∀ type, ∀ gone ∈
    (before.dependents.get type).api.store.removals (after.dependents.get type).api.store,
    (Resource.metadata gone).isControlledBy primary = true

def Permits (before after : World α) (primary : α) : Prop :=
  ∀ type, (after.dependents.get type).cache = (before.dependents.get type).cache ∧
    ∃ edits, (before.dependents.get type).api.Edited edits (after.dependents.get type).api ∧
      ∀ edit ∈ edits, (before.dependents.get type).Permits primary edit

theorem Permits.refl (world : World α) (primary : α) : world.Permits world primary :=
  fun _ => ⟨rfl, [], .refl _, by simp⟩

theorem Permits.trans {before middle after : World α} {primary : α}
    (start : before.Permits middle primary) (finish : middle.Permits after primary) :
    before.Permits after primary := by
  intro type
  obtain ⟨cache, first, one, permits⟩ := start type
  obtain ⟨later, second, other, allows⟩ := finish type
  refine ⟨later.trans cache, first ++ second, one.trans other, fun edit member => ?_⟩
  rcases List.mem_append.mp member with member | member
  · exact permits edit member
  · have allowed := allows edit member
    cases edit with
    | removed key gone => simpa only [Access.Permits, cache] using allowed
    | created key made => exact allowed

theorem Permits.removesOwn_trans {before middle after : World α} {primary : α}
    (start : before.Permits middle primary) (finish : middle.Permits after primary) :
    before.RemovesOwn after primary ↔
      before.RemovesOwn middle primary ∧ middle.RemovesOwn after primary := by
  have split (type : BuiltIn) (gone : Manifest type) :
      gone ∈ (before.dependents.get type).api.store.removals
          (after.dependents.get type).api.store ↔
        gone ∈ (before.dependents.get type).api.store.removals
            (middle.dependents.get type).api.store ∨
          gone ∈ (middle.dependents.get type).api.store.removals
            (after.dependents.get type).api.store := by
    obtain ⟨_, _, one, _⟩ := start type
    obtain ⟨_, _, other, _⟩ := finish type
    exact one.store.mem_removals_trans other.store
  constructor
  · intro own
    exact ⟨fun type gone goes => own type gone ((split type gone).mpr (.inl goes)),
      fun type gone goes => own type gone ((split type gone).mpr (.inr goes))⟩
  · rintro ⟨first, second⟩ type gone goes
    rcases (split type gone).mp goes with goes | goes
    · exact first type gone goes
    · exact second type gone goes

/-- Deletes are not made to fail, and every cached object is under its own key. -/
structure Faithful (world : World α) : Prop where
  reliable (type : BuiltIn) : (world.dependents.get type).api.Reliable
  keyed (type : BuiltIn) : Keyed (world.dependents.get type).cache.items

theorem Permits.faithful {before after : World α} {primary : α}
    (run : before.Permits after primary) (faithful : before.Faithful) : after.Faithful where
  reliable := fun type => by
    obtain ⟨_, _, edited, _⟩ := run type
    exact edited.reliable (faithful.reliable type)
  keyed := fun type => by
    rw [(run type).1]
    exact faithful.keyed type

end World

namespace Dependent

theorem sync_permits {dependent : Dependent α σ} {world after : World α} {primary : α} {status : σ}
    {result : Except ReconcileError (Bool × σ)}
    (ran : dependent.sync world primary status = (result, after)) :
    world.Permits after primary ∧
      ((world.dependents.get dependent.type).SparesFor dependent.template primary →
        world.RemovesOwn after primary) ∧
      (world.Faithful → world.RemovesOwn after primary →
        (world.dependents.get dependent.type).SparesFor dependent.template primary) := by
  unfold Dependent.sync at ran
  cases synced :
      (world.dependents.get dependent.type).sync dependent.template primary status with
  | mk outcome access =>
      simp only [synced] at ran
      cases ran
      obtain ⟨cache, edits, edited, permits, safe⟩ := Access.sync_edited synced
      have others {type : BuiltIn} (differ : type ≠ dependent.type) :
          (world.dependents.set dependent.type access).get type = world.dependents.get type :=
        PerKind.get_set_other differ
      refine ⟨fun type => ?_, fun spares type gone goes => ?_, fun faithful own => ?_⟩
      · by_cases same : type = dependent.type
        · subst same
          rw [PerKind.get_set_same]
          exact ⟨cache, edits, edited, permits⟩
        · rw [others same]
          exact ⟨rfl, [], .refl _, by simp⟩
      · by_cases same : type = dependent.type
        · subst same
          rw [PerKind.get_set_same] at goes
          obtain ⟨key, member⟩ := edited.store.mem_removals.mp goes
          exact safe spares key gone member
        · rw [others same] at goes
          obtain ⟨key, member⟩ := (ScriptedStore.Edited.refl _).store.mem_removals.mp goes
          contradiction
      · refine Access.sparesFor_of_sync synced (faithful.reliable _) (faithful.keyed _) ?_
        intro gone goes
        refine own dependent.type gone ?_
        rw [PerKind.get_set_same]
        exact goes

theorem syncAll_permits {dependents : List (Dependent α σ)} {world after : World α} {primary : α}
    {status : σ} {result : Except ReconcileError (Bool × σ)}
    (ran : syncAll world primary status dependents = (result, after)) :
    world.Permits after primary ∧
      (Spare world primary status dependents → world.RemovesOwn after primary) ∧
      (world.Faithful → world.RemovesOwn after primary →
        Spare world primary status dependents) := by
  induction dependents generalizing world status result after with
  | nil =>
      cases ran
      refine ⟨.refl world primary, fun _ type gone goes => ?_, fun _ _ => trivial⟩
      obtain ⟨key, member⟩ := (ScriptedStore.Edited.refl _).store.mem_removals.mp goes
      contradiction
  | cons dependent rest ih =>
      unfold syncAll at ran
      cases synced : dependent.sync world primary status with
      | mk outcome middle =>
          obtain ⟨first, safe, converse⟩ := sync_permits synced
          cases outcome with
          | error error =>
              simp only [synced] at ran
              cases ran
              refine ⟨first, fun spare => safe spare.1, fun faithful own =>
                ⟨converse faithful own, ?_⟩⟩
              intro changed observed last again
              rw [synced] at again
              cases again
          | ok found =>
              obtain ⟨changed, observed⟩ := found
              cases others : syncAll middle primary observed rest with
              | mk outcome last =>
                  have same : last = after := by
                    simp only [synced, others] at ran
                    cases outcome <;> cases ran <;> rfl
                  subst same
                  obtain ⟨second, safeRest, exactRest⟩ := ih others
                  have parts := first.removesOwn_trans second
                  refine ⟨first.trans second, fun spare => ?_, fun faithful own => ?_⟩
                  · exact parts.mpr ⟨safe spare.1, safeRest (spare.2 _ _ _ synced)⟩
                  · obtain ⟨ownFirst, ownRest⟩ := parts.mp own
                    refine ⟨converse faithful ownFirst, fun _ _ _ again => ?_⟩
                    rw [synced] at again
                    cases again
                    exact exactRest (first.faithful faithful) ownRest

end Dependent

namespace Reconciler

variable [DecidableEq σ]

theorem dependents_pass (reconciler : Reconciler α σ) {world after : World α} {key : Key}
    {primary : α} {result : Except ReconcileError (Bool × σ)}
    (subject : world.subject? key = some primary)
    (ran : Dependent.syncAll world primary (Primary.status primary) reconciler.dependents =
      (result, after)) :
    (reconciler.pass world key).world.dependents = after.dependents := by
  unfold pass
  simp only [subject, ran]
  cases result with
  | error error => rfl
  | ok found =>
      simp only [World.writeStatus]
      split
      · rfl
      · split <;> rfl

/-- A pass removes only objects under the keys of cached dependents of its primary, creates objects
of the primary where there are none, and leaves every other object of the dependent stores as it
is. What it removes belongs to its primary if nobody else's object is under a key that it deletes;
and only if, when the caches keep objects under their keys and the deletes are not made to fail. -/
theorem pass_spares (reconciler : Reconciler α σ) (world : World α) (key : Key) (primary : α)
    (subject : world.subject? key = some primary) :
    world.Permits (reconciler.pass world key).world primary ∧
    (∀ (type : BuiltIn) (place : Key) (object : Manifest type),
      (world.dependents.get type).api.store.objects[place]? = some object →
      ((reconciler.pass world key).world.dependents.get type).api.store.objects[place]? =
          some object ∨
        object ∈ (world.dependents.get type).api.store.removals
          ((reconciler.pass world key).world.dependents.get type).api.store) ∧
    (Dependent.Spare world primary (Primary.status primary) reconciler.dependents →
      world.RemovesOwn (reconciler.pass world key).world primary) ∧
    (world.Faithful →
      (world.RemovesOwn (reconciler.pass world key).world primary ↔
        Dependent.Spare world primary (Primary.status primary) reconciler.dependents)) := by
  cases ran : Dependent.syncAll world primary (Primary.status primary) reconciler.dependents with
  | mk result after =>
      have same := dependents_pass reconciler subject ran
      obtain ⟨permits, safe, converse⟩ := Dependent.syncAll_permits ran
      simp only [World.Permits, World.RemovesOwn, same] at permits safe converse ⊢
      refine ⟨permits, fun type place object present => ?_, safe, fun faithful =>
        ⟨converse faithful, safe⟩⟩
      obtain ⟨_, edits, edited, _⟩ := permits type
      rcases edited.store.objects.survives present with stays | goes
      · exact .inl stays
      · exact .inr (edited.store.mem_removals.mpr ⟨place, goes⟩)

def owner : Service :=
  { metadata := { name := some "web", space := some "ns", uid := some "svc-1" } }

def owned : Ingress where
  metadata := {
    name := some "web", space := some "ns", uid := some "dep-1"
    ownerReferences := some [
      { apiVersion := "v1", kind := "Service", name := "web", uid := "svc-1"
        controller := some true }] }

def foreign : Ingress :=
  { metadata := { name := some "web", space := some "ns", uid := some "foreign" } }

/-- The service and a store of ingresses, with a cache that has seen so many changes of it. -/
def oneService (store : Store Ingress) (seen : Nat) : World Service :=
  let services := (({} : Store Service).put owner).2
  { primary := {
      cache := (({} : Index Service).apply (services.feed.take 1)).1.freeze
      api := { store := services } }
    dependents := {
      configMap := {}, service := {}, deployment := {}
      ingress := {
        cache := (({} : Index Ingress).apply (store.feed.take seen)).1.freeze
        api := { store } } } }

def original : Store Ingress := (({} : Store Ingress).put owned).2

def replaced : Store Ingress := ((original.remove ⟨some "ns", "web"⟩).2.put foreign).2

/-- An ingress that the service no longer wants is removed, and it is the service's own. -/
theorem pass_spares_owned :
    let world := oneService original 1
    ∃ primary, world.subject? ⟨some "ns", "web"⟩ = some primary ∧ world.Faithful ∧
      world.RemovesOwn ((ofServices "ingress" {}).pass world ⟨some "ns", "web"⟩).world primary ∧
      Dependent.Spare world primary () (ofServices "ingress" {}).dependents := by
  intro world
  have faithful : world.Faithful := by
    constructor
    · intro type
      cases type <;> exact ⟨rfl, rfl⟩
    · intro type
      cases type with
      | ingress => exact Access.Lags.keyed ⟨.put .empty owned, 1, 1, rfl⟩
      | configMap => exact Keyed.empty
      | service => exact Keyed.empty
      | deployment => exact Keyed.empty
  have own : world.RemovesOwn
      ((ofServices "ingress" {}).pass world ⟨some "ns", "web"⟩).world
      (({} : Store Service).stamp owner) := by
    intro type gone goes
    cases type with
    | ingress =>
        have only : gone ∈ [({} : Store Ingress).stamp owned] := goes
        rw [List.mem_singleton] at only
        subst only
        rfl
    | configMap => contradiction
    | service => contradiction
    | deployment => contradiction
  obtain ⟨_, _, _, exactly⟩ := pass_spares (ofServices "ingress" {}) world ⟨some "ns", "web"⟩ _ rfl
  exact ⟨_, rfl, faithful, own, (exactly faithful).mp own⟩

/-- With a cache that lags behind, an ingress that somebody else put in the place of one that the
service owned is removed instead of that one. -/
theorem not_removesOwn_of_lags :
    ¬∀ (reconciler : Reconciler Service Unit) (world : World Service) (key : Key)
      (primary : Service), world.subject? key = some primary → world.primary.Lags →
      (∀ type, (world.dependents.get type).Lags) →
      world.RemovesOwn (reconciler.pass world key).world primary := by
  intro claimed
  have lags : ∀ type, ((oneService replaced 1).dependents.get type).Lags := by
    intro type
    cases type with
    | ingress => exact ⟨.put (.remove (.put .empty owned) _) foreign, 1, 1, rfl⟩
    | configMap => exact ⟨.empty, 0, 0, rfl⟩
    | service => exact ⟨.empty, 0, 0, rfl⟩
    | deployment => exact ⟨.empty, 0, 0, rfl⟩
  have own := claimed (ofServices "ingress" {}) (oneService replaced 1) ⟨some "ns", "web"⟩ _ rfl
    ⟨.put .empty owner, 1, 1, rfl⟩ lags .ingress (original.stamp foreign) (List.Mem.head _)
  contradiction

end Reconciler

end ReconcileLoop
