import ReconcileLoop.Proofs.Reconcile.Footprint

namespace ReconcileLoop

/-! # Passes of independent primaries commute

Two primaries are separate if for no kind they ask for the same place, and none of them asks for a
place where the other one's object is. Each of their passes leaves the places alone that the other
looks at, so the passes may be run in either order: both have the same results, and leave the same
objects but for the stamps of what is written.
-/

variable {α σ : Type} [Primary α σ]

theorem not_isControlledBy_both {first second : α} {uid : String} {metadata : Metadata}
    (identified : (Resource.metadata first).uid = some uid)
    (other : ∃ uid, (Resource.metadata second).uid = some uid)
    (differ : (Resource.metadata first).uid ≠ (Resource.metadata second).uid)
    (owned : metadata.isControlledBy first = true) : metadata.isControlledBy second = false := by
  obtain ⟨also, same⟩ := other
  rw [Bool.eq_false_iff]
  intro both
  have one := (Metadata.isControlledBy_iff identified).mp owned
  have two := (Metadata.isControlledBy_iff same).mp both
  rw [identified, same, ← one, ← two] at differ
  exact differ rfl

namespace Reconciler

/-- Two primaries that do not get in each other's way. -/
structure Separate (reconciler : Reconciler α σ) (world : World α) (first second : α) : Prop where
  /-- Of no kind they ask for objects with the same key. -/
  places : ∀ dependent ∈ reconciler.dependents, ∀ place one other,
    dependent.template.wanted first = some (place, one) →
      dependent.template.wanted second ≠ some (place, other)
  /-- Where the first asks for an object, there is none that the second controls. -/
  first_free : ∀ dependent ∈ reconciler.dependents, ∀ place asked held,
    dependent.template.wanted first = some (place, asked) →
      (world.stored dependent.type)[place]? = some held →
        (Resource.metadata held).isControlledBy second = false
  second_free : ∀ dependent ∈ reconciler.dependents, ∀ place asked held,
    dependent.template.wanted second = some (place, asked) →
      (world.stored dependent.type)[place]? = some held →
        (Resource.metadata held).isControlledBy first = false

variable {reconciler : Reconciler α σ} {world : World α} {key : Key} {first second : α}

theorem Separate.symm (separate : reconciler.Separate world first second) :
    reconciler.Separate world second first where
  places dependent member place one other asked also :=
    separate.places dependent member place other one also asked
  first_free := separate.second_free
  second_free := separate.first_free

theorem Separate.clear (separate : reconciler.Separate world first second) {uid : String}
    (identified : (Resource.metadata first).uid = some uid)
    (also : ∃ uid, (Resource.metadata second).uid = some uid)
    (differ : (Resource.metadata first).uid ≠ (Resource.metadata second).uid)
    {dependent : Dependent α σ} (member : dependent ∈ reconciler.dependents) :
    (dependent.order first).Clear (dependent.order second) (world.stored dependent.type) := by
  have spared {object : Manifest dependent.type}
      (foreign : (Resource.metadata object).isControlledBy second = false) :
      (dependent.order second).extra object = false := by
    simp [Dependent.order, Template.order, foreign]
  refine ⟨fun wanted => separate.places dependent member _ _ _ wanted, fun wanted present => ?_,
    fun wanted stamp => ?_, fun extra => ?_⟩
  · exact spared (separate.first_free dependent member _ _ _ wanted present)
  · exact spared (not_isControlledBy_both identified also differ
      (Template.order_sound.controlled wanted stamp))
  · exact spared (not_isControlledBy_both identified also differ (isOwn_of_extra extra).2)

variable [DecidableEq σ]

/-- What becomes of a world by a pass, once the caches have absorbed what it did. -/
def run (reconciler : Reconciler α σ) (world : World α) (key : Key) : World α :=
  world.absorb (reconciler.pass world key).world

/-- Passes for two keys have the same results and leave the same objects in either order. -/
structure Commutes (reconciler : Reconciler α σ) (world : World α) (one other : Key) : Prop where
  first : (reconciler.pass (reconciler.run world other) one).result =
    (reconciler.pass world one).result
  second : (reconciler.pass (reconciler.run world one) other).result =
    (reconciler.pass world other).result
  twins : world.Twins (reconciler.run (reconciler.run world one) other)
    (reconciler.run (reconciler.run world other) one)

theorem run_calm (reconciler : Reconciler α σ) (calm : world.Calm) (key : Key) :
    (reconciler.run world key).Calm :=
  (pass_keeps_calm reconciler calm key).absorb world

theorem primaries_run (reconciler : Reconciler α σ) (world : World α) (key : Key) :
    (reconciler.run world key).primaries = (reconciler.pass world key).world.primaries :=
  World.primaries_absorb world _

theorem stored_run (reconciler : Reconciler α σ) (world : World α) (key : Key)
    (type : BuiltIn) :
    (reconciler.run world key).stored type = (reconciler.pass world key).world.stored type :=
  World.stored_absorb world _ type

/-- A pass leaves the places alone that a separate primary asks for. -/
theorem Footprint.samePlaces
    (footprint : reconciler.Footprint key first world (reconciler.pass world key))
    (clear : ∀ dependent ∈ reconciler.dependents,
      (dependent.order second).Clear (dependent.order first) (world.stored dependent.type)) :
    reconciler.SamePlaces second world (reconciler.run world key) := by
  intro dependent member place object wanted
  rw [stored_run]
  exact (footprint.ends dependent member place).untouched
    ((clear dependent member).not_touches_wanted wanted)

variable [LawfulPrimary α]

theorem run_inSync (lawful : reconciler.Lawful) (inSync : world.InSync) (key : Key) :
    (reconciler.run world key).InSync := by
  cases subject : world.subject? key with
  | none =>
      rw [run, pass_of_none reconciler subject]
      exact inSync.absorb_self
  | some primary => exact (pass_passed lawful inSync subject).inSync inSync

theorem commutes (lawful : reconciler.Lawful) (inSync : world.InSync) (calm : world.Calm)
    {one other : Key} (cached : world.primary.cache.get? one = some first)
    (alsoCached : world.primary.cache.get? other = some second)
    (differ : (Resource.metadata first).uid ≠ (Resource.metadata second).uid)
    (separate : reconciler.Separate world first second) : reconciler.Commutes world one other := by
  rw [inSync.primary.get?_eq] at cached alsoCached
  have able : CanOwn first :=
    ⟨⟨one, inSync.primary.keyed one first cached⟩, inSync.identified one first cached⟩
  have alsoAble : CanOwn second :=
    ⟨⟨other, inSync.primary.keyed other second alsoCached⟩,
      inSync.identified other second alsoCached⟩
  have apart : one ≠ other := by
    rintro rfl
    rw [cached] at alsoCached
    exact differ (congrArg (fun primary => (Resource.metadata primary).uid)
      (Option.some.inj alsoCached))
  obtain ⟨uid, identified⟩ := able.identified
  obtain ⟨otherUid, alsoIdentified⟩ := alsoAble.identified
  have clear (dependent) (member : dependent ∈ reconciler.dependents) :=
    separate.clear identified ⟨otherUid, alsoIdentified⟩ differ member
  have back (dependent) (member : dependent ∈ reconciler.dependents) :=
    separate.symm.clear alsoIdentified ⟨uid, identified⟩ differ.symm member
  -- Each pass is run in the world at hand, and in the one that the other pass leaves.
  have early := footprint_pass lawful inSync calm cached
  have soon := footprint_pass lawful inSync calm alsoCached
  have late := footprint_pass lawful (run_inSync lawful inSync one)
    (run_calm reconciler calm one)
    ((early.primaries other apart.symm).trans alsoCached)
  have last := footprint_pass lawful (run_inSync lawful inSync other)
    (run_calm reconciler calm other) ((soon.primaries one apart).trans cached)
  have same := soon.samePlaces clear
  have alsoSame := early.samePlaces back
  obtain ⟨firstResult, firstTwins⟩ := early.agree lawful able last same
  obtain ⟨secondResult, secondTwins⟩ := late.agree lawful alsoAble soon alsoSame.symm
  refine ⟨firstResult, secondResult.symm, ⟨fun type => ?_, fun place => ?_⟩⟩
  · by_cases inside : ∃ dependent ∈ reconciler.dependents, dependent.type = type
    · obtain ⟨dependent, member, rfl⟩ := inside
      intro place
      have second := late.ends dependent member place
      have later := last.ends dependent member place
      rw [stored_run, alsoSame.reaches_eq] at second
      rw [stored_run, same.reaches_eq] at later
      rw [stored_run, stored_run]
      exact (early.ends dependent member place).commute (clear dependent member)
        (back dependent member) second (soon.ends dependent member place) later
    · have outside : ∀ dependent ∈ reconciler.dependents, dependent.type ≠ type :=
        fun dependent member same => inside ⟨dependent, member, same⟩
      intro place
      rw [stored_run, stored_run, late.others type outside, last.others type outside, stored_run,
        stored_run, early.others type outside, soon.others type outside]
      exact .inl rfl
  · rw [primaries_run, primaries_run]
    by_cases mine : place = one
    · subst mine
      rw [late.primaries place apart, primaries_run]
      exact firstTwins
    · by_cases theirs : place = other
      · subst theirs
        rw [last.primaries place mine, primaries_run]
        exact secondTwins
      · rw [late.primaries place theirs, last.primaries place mine, primaries_run, primaries_run,
          early.primaries place mine, soon.primaries place theirs]
        exact .inl rfl

/-- The passes of separate apps, or of separate services, commute. -/
theorem pass_commutes :
    (∀ (name : String) (world : World App) (one other : Key) (first second : App),
      world.InSync → world.Calm → world.primary.cache.get? one = some first →
      world.primary.cache.get? other = some second → first.metadata.uid ≠ second.metadata.uid →
      (ofApps name).Separate world first second → (ofApps name).Commutes world one other) ∧
    ∀ (name : String) (template : IngressTemplate) (world : World Service) (one other : Key)
      (first second : Service),
      world.InSync → world.Calm → world.primary.cache.get? one = some first →
      world.primary.cache.get? other = some second → first.metadata.uid ≠ second.metadata.uid →
      (ofServices name template).Separate world first second →
      (ofServices name template).Commutes world one other := by
  refine ⟨fun name world one other first second inSync calm cached alsoCached differ separate => ?_,
    fun name template world one other first second inSync calm cached alsoCached differ separate =>
      ?_⟩
  · exact commutes (ofApps_lawful name) inSync calm cached alsoCached differ separate
  · exact commutes (ofServices_lawful name template) inSync calm cached alsoCached differ separate

/-- An app that asks for a deployment of a name that is taken. -/
def opposed : App where
  metadata := { name := some "api", space := some "ns", uid := some "app-2" }
  spec := { deploymentTemplate := { name := "db" }, serviceTemplate := { name := "api" } }

def sharedWorld : World App :=
  .caughtUp ((({} : Store App).put renamed).2.put opposed).2 renamedStores

theorem sharedWorld_inSync : sharedWorld.InSync :=
  World.caughtUp_inSync (.put (.put .empty renamed) opposed) renamedStores_written

theorem sharedWorld_calm : sharedWorld.Calm :=
  World.caughtUp_calm (.put (.put .empty renamed) opposed) renamedStores_written

theorem sharedWorld_separate :
    (ofApps "app").Separate sharedWorld
      (({} : Store App).stamp renamed) ((({} : Store App).put renamed).2.stamp opposed) := by
  refine ⟨fun dependent member place one other asked also => ?_,
    fun dependent member place desired held asked present => ?_,
    fun dependent member place desired held asked present => ?_⟩
  all_goals
    simp only [ofApps, List.mem_cons, List.not_mem_nil, or_false] at member
    rcases member with rfl | rfl
  · have first : Key.namespaced "ns" "web-v2" = place := congrArg Prod.fst (Option.some.inj asked)
    have second : Key.namespaced "ns" "db" = place := congrArg Prod.fst (Option.some.inj also)
    exact absurd (first.trans second.symm) (by decide)
  · have first : Key.namespaced "ns" "web" = place := congrArg Prod.fst (Option.some.inj asked)
    have second : Key.namespaced "ns" "api" = place := congrArg Prod.fst (Option.some.inj also)
    exact absurd (first.trans second.symm) (by decide)
  · obtain rfl : Key.namespaced "ns" "web-v2" = place := congrArg Prod.fst (Option.some.inj asked)
    have absent : (sharedWorld.stored .deployment)[Key.namespaced "ns" "web-v2"]? = none := rfl
    rw [absent] at present
    contradiction
  · obtain rfl : Key.namespaced "ns" "web" = place := congrArg Prod.fst (Option.some.inj asked)
    obtain rfl := Option.some.inj present
    rfl
  · obtain rfl : Key.namespaced "ns" "db" = place := congrArg Prod.fst (Option.some.inj asked)
    obtain rfl := Option.some.inj present
    rfl
  · obtain rfl : Key.namespaced "ns" "api" = place := congrArg Prod.fst (Option.some.inj asked)
    have absent : (sharedWorld.stored .service)[Key.namespaced "ns" "api"]? = none := rfl
    rw [absent] at present
    contradiction

/-- Another service that asks for an ingress. -/
def alsoExposed : Service where
  metadata :=
    { name := some "api", space := some "ns", uid := some "svc-2"
      annotations := some (.ofList [("ingress/http", "")]) }

def bothExposedWorld : World Service :=
  .caughtUp ((({} : Store Service).put exposed).2.put alsoExposed).2 (.ofFun fun _ => {})

theorem bothExposedWorld_inSync : bothExposedWorld.InSync :=
  World.caughtUp_inSync (.put (.put .empty exposed) alsoExposed) bareStores_written

theorem bothExposedWorld_calm : bothExposedWorld.Calm :=
  World.caughtUp_calm (.put (.put .empty exposed) alsoExposed) bareStores_written

theorem bothExposedWorld_separate :
    (ofServices "service" {}).Separate bothExposedWorld (({} : Store Service).stamp exposed)
      ((({} : Store Service).put exposed).2.stamp alsoExposed) := by
  have nothing (place : Key) : (bothExposedWorld.stored .ingress)[place]? = none := by
    change (∅ : Std.ExtTreeMap Key Ingress)[place]? = none
    simp
  refine ⟨fun dependent member place one other asked also => ?_,
    fun dependent member place desired held asked present => ?_,
    fun dependent member place desired held asked present => ?_⟩
  all_goals
    obtain rfl := List.mem_singleton.mp member
  · have first : Key.namespaced "ns" "web" = place := congrArg Prod.fst (Option.some.inj asked)
    have second : Key.namespaced "ns" "api" = place := congrArg Prod.fst (Option.some.inj also)
    exact absurd (first.trans second.symm) (by decide)
  all_goals
    rw [nothing] at present
    contradiction

/-- One app is brought in line, whichever pass comes first, and the pass for the other one fails; both
services get their ingresses. -/
theorem pass_commutes_opposed :
    (sharedWorld.InSync ∧ sharedWorld.Calm ∧
      ((ofApps "app").pass sharedWorld ⟨some "ns", "web"⟩).result = .ok () ∧
      ((ofApps "app").pass sharedWorld ⟨some "ns", "api"⟩).result =
        .error (.ownershipConflict "Deployment" ⟨some "ns", "db"⟩ "App" "api") ∧
      (ofApps "app").Commutes sharedWorld ⟨some "ns", "web"⟩ ⟨some "ns", "api"⟩) ∧
      bothExposedWorld.InSync ∧ bothExposedWorld.Calm ∧
        (ofServices "service" {}).Commutes bothExposedWorld
          ⟨some "ns", "web"⟩ ⟨some "ns", "api"⟩ := by
  refine ⟨⟨sharedWorld_inSync, sharedWorld_calm, rfl, rfl, ?_⟩, bothExposedWorld_inSync,
    bothExposedWorld_calm, ?_⟩
  · exact pass_commutes.1 "app" sharedWorld ⟨some "ns", "web"⟩ ⟨some "ns", "api"⟩ _ _
      sharedWorld_inSync sharedWorld_calm rfl rfl (by decide) sharedWorld_separate
  · exact pass_commutes.2 "service" {} bothExposedWorld ⟨some "ns", "web"⟩ ⟨some "ns", "api"⟩ _ _
      bothExposedWorld_inSync bothExposedWorld_calm rfl rfl (by decide) bothExposedWorld_separate

end Reconciler

end ReconcileLoop
