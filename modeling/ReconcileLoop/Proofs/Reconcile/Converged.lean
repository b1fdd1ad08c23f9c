import ReconcileLoop.Proofs.Reconcile.Passes

namespace ReconcileLoop

/-! # A pass converges

A calm pass with caches that have caught up, and with nobody else's object in the place of a
dependent, succeeds. It leaves to its primary exactly the dependents that it asks for, those of others
as they were, and the primary with the status that its dependents report.
-/

variable {α σ δ : Type} [Primary α σ] [Resource δ]

def IsOwn (primary : α) (object : δ) : Prop :=
  (Resource.metadata object).space = (Resource.metadata primary).space ∧
    (Resource.metadata object).isControlledBy primary = true

/-- What a pass makes of the objects of one kind. -/
structure Settles (primary : α) (desired : Option δ) (before after : Std.ExtTreeMap Key δ) :
    Prop where
  /-- The primary has no other dependents than the one it asks for. -/
  own {key : Key} {object : δ} (present : after[key]? = some object)
    (owned : IsOwn primary object) :
    ∃ asked, desired = some asked ∧ Resource.key asked = .ok key
  /-- What it asks for is there: as it was, or created as it was asked for. -/
  there {asked : δ} (wanted : desired = some asked) :
    ∃ key held, Resource.key asked = .ok key ∧ after[key]? = some held ∧ IsOwn primary held ∧
      (before[key]? = some held ∨ before[key]? = none ∧ Store.StampOf asked held)
  others {object : δ} (foreign : ¬IsOwn primary object) (key : Key) :
    after[key]? = some object ↔ before[key]? = some object

theorem space_of_key {object : δ} {key : Key} {space : String}
    (own : Resource.key object = .ok key) (spaced : key.space? = some space) :
    (Resource.metadata object).space = some space := by
  obtain ⟨_, _, same⟩ := Key.name_ne_of_ofParts own
  rw [spaced] at same
  exact (Option.filter_eq_some_iff.mp same.symm).1

theorem isOwn_of_extra {template : Template α σ δ} {primary : α} {object : δ}
    (extra : (template.order primary).extra object = true) : IsOwn primary object := by
  obtain ⟨controls, stale⟩ := Bool.and_eq_true_iff.mp extra
  simp only [Access.isStale, Bool.and_eq_true, decide_eq_true_eq] at stale
  exact ⟨stale.2, controls⟩

theorem isOwn_of_made {template : Template α σ δ} {primary : α} {key : Key} {object written : δ}
    (wanted : (template.order primary).wanted = some (key, object))
    (stamp : Store.StampOf object written) : IsOwn primary written := by
  refine ⟨?_, Template.order_sound.controlled wanted stamp⟩
  obtain ⟨owner, rendered, _, rfl⟩ :=
    Access.adopted_of_desired (Template.wanted_eq_some wanted).1
  obtain ⟨fresh, version, rfl⟩ := stamp
  simp [Store.stamped, Template.adopted]

theorem key_eq_of_parts {first second : δ} {one other : Key} (own : Resource.key first = .ok one)
    (also : Resource.key second = .ok other)
    (name : (Resource.metadata first).name = (Resource.metadata second).name)
    (space : (Resource.metadata first).space = (Resource.metadata second).space) : one = other := by
  rw [Resource.key, Metadata.key, name, space] at own
  exact Except.ok.inj (own.symm.trans also)

namespace Template

variable {template : Template α σ δ} {primary : α} {before after : Std.ExtTreeMap Key δ}

theorem asked_of_own (keyed : Keyed after) (tidy : (template.order primary).Tidy after)
    {key : Key} {object : δ} (present : after[key]? = some object) (owned : IsOwn primary object) :
    ∃ asked, (template.wanted primary).map (·.2) = some asked ∧ Resource.key asked = .ok key := by
  have clean := tidy.clean present
  have own := keyed key object present
  obtain ⟨named, _, _⟩ := Key.name_ne_of_ofParts own
  have name : (Resource.metadata object).name =
      Access.nameOf ((template.wanted primary).map (·.2)) := by
    by_contra differs
    simp [order, Access.isStale, owned.1, owned.2, differs] at clean
  cases wanted : template.wanted primary with
  | none =>
      rw [wanted, named] at name
      contradiction
  | some entry =>
      obtain ⟨place, asked⟩ := entry
      obtain ⟨desired, also⟩ := wanted_eq_some wanted
      rw [wanted] at name
      obtain ⟨owner, rendered, _, rfl⟩ := Access.adopted_of_desired desired
      have space : (Resource.metadata object).space =
          (Resource.metadata (adopted primary owner rendered)).space := by
        rw [owned.1, adopted, Resource.metadata_withMetadata]
      refine ⟨_, rfl, ?_⟩
      rw [key_eq_of_parts own also name space]
      exact also

theorem held_of_wanted {space : String} (spaced : (Resource.metadata primary).space = some space)
    (nonempty : space ≠ "") (keyed : Keyed after)
    (toward : (template.order primary).Toward before after)
    (tidy : (template.order primary).Tidy after)
    (free : (template.order primary).obstacle? after = none) {key : Key} {object : δ}
    (wanted : template.wanted primary = some (key, object)) :
    ∃ held, after[key]? = some held ∧ IsOwn primary held ∧
      (before[key]? = some held ∨ before[key]? = none ∧ Store.StampOf object held) := by
  have here : (template.order primary).wanted = some (key, object) := wanted
  obtain ⟨held, present⟩ := tidy.there here
  obtain ⟨asked, own⟩ := wanted_eq_some wanted
  have controls : (template.order primary).controls held = true := by
    by_contra foreign
    simp [Order.obstacle?, here, present, foreign] at free
  have within : key.space? = some space := by
    obtain ⟨owner, rendered, _, rfl⟩ := Access.adopted_of_desired asked
    obtain ⟨_, _, same⟩ := Key.name_ne_of_ofParts own
    rw [same, adopted, Resource.metadata_withMetadata, spaced]
    simp [nonempty]
  have inside := space_of_key (keyed key held present) within
  refine ⟨held, present, ⟨inside.trans spaced.symm, controls⟩, ?_⟩
  have turn := toward key
  rw [present] at turn
  generalize before[key]? = start at turn
  cases turn with
  | kept => exact .inl rfl
  | made again stamp =>
      rw [here] at again
      cases again
      exact .inr ⟨rfl, stamp⟩

theorem others_of_toward (toward : (template.order primary).Toward before after) {object : δ}
    (foreign : ¬IsOwn primary object) (key : Key) :
    after[key]? = some object ↔ before[key]? = some object := by
  have turn := toward key
  generalize before[key]? = start at turn
  generalize at_after : after[key]? = last at turn
  cases turn with
  | kept => exact .rfl
  | dropped extra =>
      refine ⟨fun impossible => by contradiction, fun same => ?_⟩
      cases same
      exact absurd (isOwn_of_extra extra) foreign
  | made wanted stamp =>
      refine ⟨fun same => ?_, fun impossible => by contradiction⟩
      cases same
      exact absurd (isOwn_of_made wanted stamp) foreign

theorem settles {space : String} (spaced : (Resource.metadata primary).space = some space)
    (nonempty : space ≠ "") (keyed : Keyed after)
    (toward : (template.order primary).Toward before after)
    (tidy : (template.order primary).Tidy after)
    (free : (template.order primary).obstacle? after = none) :
    Settles primary ((template.wanted primary).map (·.2)) before after where
  own present owned := asked_of_own keyed tidy present owned
  there {asked} desired := by
    obtain ⟨⟨key, object⟩, wanted, rfl⟩ := Option.map_eq_some_iff.mp desired
    obtain ⟨held, present, own, origin⟩ :=
      held_of_wanted spaced nonempty keyed toward tidy free wanted
    exact ⟨key, held, (wanted_eq_some wanted).2, present, own, origin⟩
  others foreign key := others_of_toward toward foreign key

end Template

/-- The dependent in the place of the one that is rendered, and none if none is. -/
def Located (rendered : Option δ) (space : String) (items : Std.ExtTreeMap Key δ)
    (found? : Option δ) : Prop :=
  match rendered with
  | none => found? = none
  | some asked => ∃ name held, (Resource.metadata asked).name = some name ∧
      items[Key.namespaced space name]? = some held ∧ found? = some held

namespace Template

variable {template : Template α σ δ} {primary : α} {owner : OwnerReference}

theorem desired_of_owner (controls : OwnerReference.toController? primary = some owner) :
    template.desired primary = .ok ((template.render primary).map (adopted primary owner)) := by
  unfold desired
  cases template.render primary with
  | none => rfl
  | some rendered => simp only [controls, Option.map_some]

theorem Lawful.wanted_of_owner (lawful : template.Lawful) (able : CanOwn primary)
    (controls : OwnerReference.toController? primary = some owner) :
    (template.wanted primary).map (·.2) = (template.render primary).map (adopted primary owner) :=
  Except.ok.inj ((lawful.desired_eq able).symm.trans (desired_of_owner controls))

theorem Lawful.located (lawful : template.Lawful) (able : CanOwn primary) {space : String}
    (spaced : (Resource.metadata primary).space = some space) (nonempty : space ≠ "")
    {items : Std.ExtTreeMap Key δ} (tidy : (template.order primary).Tidy items) :
    Located (template.render primary) space items ((template.order primary).found? items) := by
  obtain ⟨owner, controls⟩ := able.owner
  have asked := lawful.wanted_of_owner able controls
  cases rendered : template.render primary with
  | none =>
      rw [rendered, Option.map_none, Option.map_eq_none_iff] at asked
      have nothing : (template.order primary).wanted = none := asked
      simp only [Located, Order.found?, nothing, Option.bind_none]
  | some object =>
      rw [rendered, Option.map_some] at asked
      obtain ⟨⟨key, desired⟩, wanted, rfl⟩ := Option.map_eq_some_iff.mp asked
      have here : (template.order primary).wanted = some (key, adopted primary owner object) := wanted
      obtain ⟨held, present⟩ := tidy.there here
      obtain ⟨named, _, within⟩ := Key.name_ne_of_ofParts (wanted_eq_some wanted).2
      have place : key = Key.namespaced space key.name := by
        obtain ⟨space?, name⟩ := key
        simp only [adopted, Resource.metadata_withMetadata, spaced] at within
        rw [within]
        simp [Key.namespaced, nonempty]
      refine ⟨key.name, held, ?_, place ▸ present, ?_⟩
      · rwa [adopted, Resource.metadata_withMetadata] at named
      · simp only [Order.found?, here, Option.bind_some, present]

end Template

namespace Reconciler

/-- Nobody else's object is in the place of a dependent that a primary asks for. -/
def Unopposed (reconciler : Reconciler α σ) (world : World α) (primary : α) : Prop :=
  ∀ dependent ∈ reconciler.dependents, ∀ asked key held,
    dependent.template.desired primary = .ok (some asked) → Resource.key asked = .ok key →
      (world.stored dependent.type)[key]? = some held →
        (Resource.metadata held).isControlledBy primary = true

theorem Unopposed.free {reconciler : Reconciler α σ} {world : World α} {primary : α}
    (unopposed : reconciler.Unopposed world primary) :
    ∀ dependent ∈ reconciler.dependents, dependent.obstacle? world primary = none := by
  intro dependent member
  unfold Dependent.obstacle? Order.obstacle?
  cases wanted : (dependent.order primary).wanted with
  | none => rfl
  | some entry =>
      obtain ⟨key, asked⟩ := entry
      cases present : (world.stored dependent.type)[key]? with
      | none => simp only [present]
      | some held =>
          obtain ⟨desired, own⟩ := Template.wanted_eq_some wanted
          have controls : (dependent.order primary).controls held = true :=
            unopposed dependent member asked key held desired own present
          simp only [present, controls, if_true]

structure Converged (reconciler : Reconciler α σ) (world : World α) (key : Key) (primary : α)
    (space : String) (outcome : PassOutcome α) : Prop where
  succeeds : outcome.result = .ok ()
  settles : ∃ owner, OwnerReference.toController? primary = some owner ∧
    ∀ dependent ∈ reconciler.dependents,
      Settles primary ((dependent.template.render primary).map (Template.adopted primary owner))
        (world.stored dependent.type) (outcome.world.stored dependent.type)
  others (type : BuiltIn) (outside : ∀ dependent ∈ reconciler.dependents, dependent.type ≠ type) :
    outcome.world.stored type = world.stored type
  /-- The status repeats what the dependents report, where there are any. -/
  reports : ∃ (stored : α)
    (found? : (dependent : Dependent α σ) → Option (Manifest dependent.type)),
    outcome.world.primaries[key]? = some stored ∧
      (∀ dependent ∈ reconciler.dependents, Located (dependent.template.render primary) space
        (outcome.world.stored dependent.type) (found? dependent)) ∧
      Primary.status stored =
        Dependent.reportAll found? reconciler.dependents (Primary.status primary)

theorem converges [DecidableEq σ] [LawfulPrimary α] {reconciler : Reconciler α σ} {world : World α}
    {key : Key} {primary : α} {space : String} (lawful : reconciler.Lawful)
    (inSync : world.InSync) (calm : world.Calm) (subject : world.subject? key = some primary)
    (spaced : (Resource.metadata primary).space = some space) (nonempty : space ≠ "")
    (unopposed : reconciler.Unopposed world primary) :
    reconciler.Converged world key primary space (reconciler.pass world key) := by
  obtain ⟨present, _, able⟩ := inSync.subject subject
  have passed := pass_passed lawful inSync subject
  have completed := pass_completed lawful inSync calm subject
  have unobstructed := unopposed.free
  have free := Dependent.firstObstacle?_eq_none.mpr unobstructed
  have tidy : ∀ dependent ∈ reconciler.dependents,
      (dependent.order primary).Tidy ((reconciler.pass world key).world.stored dependent.type) := by
    intro dependent member
    refine completed.tidy dependent ?_
    rw [Dependent.reached_eq_self unobstructed]
    exact member
  obtain ⟨owner, controls⟩ := able.owner
  obtain ⟨stored, _, there, status⟩ := completed.later passed present free
  have succeeds : (reconciler.pass world key).result = .ok () := by
    have result := completed.result
    rw [free] at result
    exact result.choose_spec
  refine ⟨succeeds, ⟨owner, controls, fun dependent member => ?_⟩,
    fun type outside => ?_, stored, Dependent.found? (reconciler.pass world key).world primary,
    there, fun dependent member => ?_, status⟩
  · have keyed := ((passed.inSync inSync).dependents dependent.type).keyed
    have still : dependent.obstacle? (reconciler.pass world key).world primary = none := by
      rw [passed.toward.obstacle?_eq lawful.distinct
        (fun type => (inSync.dependents type).keyed) dependent member]
      exact unobstructed dependent member
    rw [← (lawful.templates dependent member).wanted_of_owner able controls]
    refine Template.settles spaced nonempty ?_ (passed.toward.each lawful.distinct member)
      (tidy dependent member) still
    rw [← World.stored_absorb world]
    exact keyed
  · exact passed.toward.others type fun dependent member =>
      outside dependent (Dependent.mem_of_reached member)
  · exact (lawful.templates dependent member).located able spaced nonempty (tidy dependent member)

/-- The status of an app repeats what its deployment and its service report, and has nothing of the
part that the app does not ask for. -/
theorem Converged.app_status {name : String} {world : World App} {key : Key} {app : App}
    {space : String} {outcome : PassOutcome App}
    (converged : (ofApps name).Converged world key app space outcome) :
    ∃ (stored : App) (deployment? : Option Deployment) (service? : Option Service),
      outcome.world.primaries[key]? = some stored ∧
      Located (App.renderDeployment app) space (outcome.world.stored .deployment) deployment? ∧
      Located (App.renderService app) space (outcome.world.stored .service) service? ∧
      Primary.status stored =
        { deployment := deployment?.map App.summarizeDeployment
          service := service?.map App.summarizeService } := by
  obtain ⟨stored, found?, present, located, status⟩ := converged.reports
  obtain ⟨deployment, located⟩ := List.forall_mem_cons.mp located
  obtain ⟨service, _⟩ := List.forall_mem_cons.mp located
  refine ⟨stored, _, _, present, deployment, service, status.trans ?_⟩
  simp only [Dependent.reportAll, ofApps, List.foldl_cons, List.foldl_nil, Template.report]
  split <;> split <;> simp_all [App.deploymentTemplate, App.serviceTemplate]

/-- A calm pass with caches that have caught up brings all dependents of an app or of a service in
line, if nobody else's object is in the place of one of them. -/
theorem pass_converges :
    (∀ (name : String) (world : World App) (key : Key) (app : App) (space : String),
      world.InSync → world.Calm → world.subject? key = some app →
      app.metadata.space = some space → space ≠ "" → (ofApps name).Unopposed world app →
      (ofApps name).Converged world key app space ((ofApps name).pass world key) ∧
      ∃ (stored : App) (deployment? : Option Deployment) (service? : Option Service),
        ((ofApps name).pass world key).world.primaries[key]? = some stored ∧
        Located (App.renderDeployment app) space
          (((ofApps name).pass world key).world.stored .deployment) deployment? ∧
        Located (App.renderService app) space
          (((ofApps name).pass world key).world.stored .service) service? ∧
        Primary.status stored =
          { deployment := deployment?.map App.summarizeDeployment
            service := service?.map App.summarizeService }) ∧
    ∀ (name : String) (template : IngressTemplate) (world : World Service) (key : Key)
      (service : Service) (space : String),
      world.InSync → world.Calm → world.subject? key = some service →
      service.metadata.space = some space → space ≠ "" →
      (ofServices name template).Unopposed world service →
      (ofServices name template).Converged world key service space
        ((ofServices name template).pass world key) := by
  refine ⟨fun name world key app space inSync calm subject spaced nonempty unopposed => ?_,
    fun name template world key service space inSync calm subject spaced nonempty unopposed => ?_⟩
  · have converged :=
      converges (ofApps_lawful name) inSync calm subject spaced nonempty unopposed
    exact ⟨converged, converged.app_status⟩
  · exact converges (ofServices_lawful name template) inSync calm subject spaced nonempty unopposed

def renamed : App where
  metadata := { name := some "web", space := some "ns", uid := some "app-1" }
  spec := { deploymentTemplate := { name := "web-v2" }, serviceTemplate := { name := "web" } }
  status := some { deployment := some ⟨1, 1, 1, 1⟩ }

def part (name : String) : Metadata where
  name := some name
  space := some "ns"
  ownerReferences := some [
    { apiVersion := App.kind.apiVersion, kind := "App", name := "web", uid := "app-1"
      controller := some true }]

def unrelated : Metadata := { name := some "db", space := some "ns" }

/-- A deployment of the old name of the app's, one of somebody else, and the app's service. -/
def renamedStores : PerKind fun type => Store (Manifest type) where
  configMap := {}
  service := (({} : Store Service).put { metadata := part "web" }).2
  deployment := ((({} : Store Deployment).put { metadata := part "web-v1" }).2.put
    { metadata := unrelated }).2
  ingress := {}

def renamedWorld : World App := .caughtUp (({} : Store App).put renamed).2 renamedStores

theorem renamedStores_written (type : BuiltIn) : (renamedStores.get type).Written := by
  cases type with
  | configMap => exact .empty
  | service => exact .put .empty _
  | deployment => exact .put (.put .empty _) _
  | ingress => exact .empty

theorem renamedWorld_inSync : renamedWorld.InSync :=
  World.caughtUp_inSync (.put .empty renamed) renamedStores_written

theorem renamedWorld_calm : renamedWorld.Calm :=
  World.caughtUp_calm (.put .empty renamed) renamedStores_written

theorem renamedWorld_unopposed :
    (ofApps "app").Unopposed renamedWorld (({} : Store App).stamp renamed) := by
  intro dependent member asked key held desired own present
  simp only [ofApps, List.mem_cons, List.not_mem_nil, or_false] at member
  rcases member with rfl | rfl
  · obtain rfl := Option.some.inj (Except.ok.inj desired)
    obtain rfl : Key.namespaced "ns" "web-v2" = key := Except.ok.inj own
    have absent : (renamedWorld.stored .deployment)[Key.namespaced "ns" "web-v2"]? = none := rfl
    rw [absent] at present
    contradiction
  · obtain rfl := Option.some.inj (Except.ok.inj desired)
    obtain rfl : Key.namespaced "ns" "web" = key := Except.ok.inj own
    obtain rfl := Option.some.inj present
    rfl

/-- A service that asks for an ingress, and has none yet. -/
def exposed : Service where
  metadata :=
    { name := some "web", space := some "ns", uid := some "svc-1"
      annotations := some (.ofList [("ingress/http", "")]) }

def exposedWorld : World Service :=
  .caughtUp (({} : Store Service).put exposed).2 (.ofFun fun _ => {})

theorem bareStores_written (type : BuiltIn) :
    ((PerKind.ofFun fun type => ({} : Store (Manifest type))).get type).Written := by
  rw [PerKind.get_ofFun]
  exact .empty

theorem exposedWorld_inSync : exposedWorld.InSync :=
  World.caughtUp_inSync (.put .empty exposed) bareStores_written

theorem exposedWorld_calm : exposedWorld.Calm :=
  World.caughtUp_calm (.put .empty exposed) bareStores_written

theorem exposedWorld_unopposed (template : IngressTemplate) :
    (ofServices "service" template).Unopposed exposedWorld
      (({} : Store Service).stamp exposed) := by
  intro dependent member asked key held desired own present
  have nothing : (exposedWorld.stored dependent.type)[key]? = none := by
    rw [exposedWorld, World.stored, World.caughtUp, PerKind.get_ofFun, Access.caughtUp,
      PerKind.get_ofFun]
    simp
  rw [nothing] at present
  contradiction

/-- The deployment of the old name goes, one of the new name comes, and the app's service stays. The
other service gets its ingress. -/
theorem pass_converges_renamed :
    (∃ app, renamedWorld.InSync ∧ renamedWorld.Calm ∧
      renamedWorld.subject? ⟨some "ns", "web"⟩ = some app ∧
      (ofApps "app").Unopposed renamedWorld app ∧
      (ofApps "app").Converged renamedWorld ⟨some "ns", "web"⟩ app "ns"
        ((ofApps "app").pass renamedWorld ⟨some "ns", "web"⟩)) ∧
    ∃ service, exposedWorld.InSync ∧ exposedWorld.Calm ∧
      exposedWorld.subject? ⟨some "ns", "web"⟩ = some service ∧
      (ofServices "service" {}).Unopposed exposedWorld service ∧
      (ofServices "service" {}).Converged exposedWorld ⟨some "ns", "web"⟩ service "ns"
        ((ofServices "service" {}).pass exposedWorld ⟨some "ns", "web"⟩) := by
  refine ⟨⟨_, renamedWorld_inSync, renamedWorld_calm, rfl, renamedWorld_unopposed, ?_⟩,
    ⟨_, exposedWorld_inSync, exposedWorld_calm, rfl, exposedWorld_unopposed {}, ?_⟩⟩
  · exact (pass_converges.1 "app" renamedWorld ⟨some "ns", "web"⟩ _ "ns" renamedWorld_inSync
      renamedWorld_calm rfl rfl (by decide) renamedWorld_unopposed).1
  · exact pass_converges.2 "service" {} exposedWorld ⟨some "ns", "web"⟩ _ "ns" exposedWorld_inSync
      exposedWorld_calm rfl rfl (by decide) (exposedWorld_unopposed {})

end Reconciler

end ReconcileLoop
