import ReconcileLoop.Proofs.Reconcile.Spared
import ReconcileLoop.Route

namespace ReconcileLoop

/-! # Deleted dependents lead back to their primary

The key under which a primary is cached is made from its metadata, where an empty namespace counts
as none. The key to which a deleted dependent is routed is made from the namespace of the dependent
and the name in its controller reference, both taken over from the primary as they are. The two agree
exactly for primaries whose namespace is not empty (`Template.deletion_routed_iff`).
-/

variable {α σ δ : Type} [Primary α σ] [Resource δ]

/-- Whoever has the namespace and the controller reference of a primary is routed to the name of the
primary in that namespace, as it is written there. -/
theorem Metadata.ownerKey?_of_adopted {metadata : Metadata} {primary : α} {owner : OwnerReference}
    {key : Key} (placed : metadata.space = (Resource.metadata primary).space)
    (owned : metadata.ownerReferences = some [owner])
    (controls : OwnerReference.toController? primary = some owner)
    (own : Resource.key primary = .ok key) :
    metadata.ownerKey? (Resource.kindName α) = some ⟨(Resource.metadata primary).space, key.name⟩ := by
  obtain ⟨named, nonempty, _⟩ := Key.name_ne_of_ofParts own
  unfold OwnerReference.toController? at controls
  split at controls
  · next name uid same identified =>
      cases controls
      obtain rfl : key.name = name := Option.some.inj (named.symm.trans same)
      simp [Metadata.ownerKey?, Metadata.controller?, owned, nonempty, placed]
  · contradiction

/-- The key of an object keeps its namespace, unless that is the empty one. -/
theorem Resource.key_eq_written_iff {primary : α} {key : Key}
    (own : Resource.key primary = .ok key) :
    (⟨(Resource.metadata primary).space, key.name⟩ : Key) = key ↔
      (Resource.metadata primary).space ≠ some "" := by
  obtain ⟨_, _, within⟩ := Key.name_ne_of_ofParts own
  obtain ⟨space?, name⟩ := key
  obtain rfl : space? = _ := within
  cases (Resource.metadata primary).space with
  | none => simp
  | some space => by_cases empty : space = "" <;> simp [Option.filter, empty]

/-- The deletion of a dependent that a template asks for is routed to the name of its primary, in the
namespace as the primary has it written, and that key is added. It is the key of the primary, under
which every cache holds it, exactly if the namespace is not the empty one. -/
theorem Template.deletion_routed_iff (template : Template α σ δ) {primary : α} {dependent : δ}
    {key : Key} (own : Resource.key primary = .ok key)
    (wanted : template.desired primary = .ok (some dependent)) :
    let signal : Signal α := .dependent .deleted (Resource.metadata dependent)
    let routed : Key := ⟨(Resource.metadata primary).space, key.name⟩
    (Route.key? signal = some key ↔ (Resource.metadata primary).space ≠ some "") ∧
    Route.key? signal = some routed ∧
    (∀ queue : WorkQueue Key, Route.route queue signal = queue.add routed ∧
      (queue.isDown = false → routed ∈ (Route.route queue signal).shared.queue.dirty)) ∧
    ∀ (deltas : List (Delta α)) (place : Key),
      (({} : Index α).steps deltas).1.items[place]? = some primary → place = key := by
  intro signal routed
  have leads : Route.key? signal = some routed := by
    obtain ⟨owner, rendered, controls, rfl⟩ := Access.adopted_of_desired wanted
    exact Metadata.ownerKey?_of_adopted (by simp [adopted]) (by simp [adopted]) controls own
  have added (queue : WorkQueue Key) : Route.route queue signal = queue.add routed := by
    simp only [Route.route, leads]
  refine ⟨?_, leads, fun queue => ⟨added queue, fun up => ?_⟩, fun deltas place held => ?_⟩
  · rw [leads, Option.some.injEq]
    exact Resource.key_eq_written_iff own
  · rw [added]
    exact (Queue.mem_dirty_add up).mpr (.inl rfl)
  · have keyed := (({} : Index α).steps_replay deltas Keyed.empty).keyed Keyed.empty
    exact Except.ok.inj ((keyed place primary held).symm.trans own)

namespace IngressTemplate

/-- A service in a namespace, that asks for an ingress. -/
def exposed (space : String) : Service where
  metadata := {
    name := some "web", space := some space, uid := some "svc-1"
    annotations := some ((∅ : TextMap).insert "ingress/http" "true") }

def exposing (space : String) : Ingress :=
  Template.adopted (exposed space)
    { apiVersion := "v1", kind := "Service", name := "web", uid := "svc-1", controller := some true }
    ((({} : IngressTemplate).render (exposed space)).getD {})

theorem deletion_routed_of_exposed :
    Resource.key (exposed "ns") = .ok ⟨some "ns", "web"⟩ ∧
    (({} : IngressTemplate).toTemplate).desired (exposed "ns") = .ok (some (exposing "ns")) ∧
    Route.key? (.dependent .deleted (exposing "ns").metadata : Signal Service) =
      some ⟨some "ns", "web"⟩ := by
  have own : Resource.key (exposed "ns") = .ok ⟨some "ns", "web"⟩ := rfl
  have wanted :
      (({} : IngressTemplate).toTemplate).desired (exposed "ns") = .ok (some (exposing "ns")) := rfl
  obtain ⟨exactly, _⟩ := Template.deletion_routed_iff _ own wanted
  exact ⟨own, wanted, exactly.mpr (by simp [Resource.metadata, exposed])⟩

/-- The ingress of a service in the empty namespace leads to a key under which there is no service. -/
theorem not_deletion_routed_of_empty :
    ¬∀ (template : IngressTemplate) (service : Service) (ingress : Ingress) (key : Key),
      Resource.key service = .ok key →
      template.toTemplate.desired service = .ok (some ingress) →
      Route.key? (.dependent .deleted ingress.metadata : Signal Service) = some key := by
  intro claimed
  have routed := claimed {} (exposed "") (exposing "") ⟨none, "web"⟩ rfl rfl
  have elsewhere :
      Route.key? (.dependent .deleted (exposing "").metadata : Signal Service) =
        some ⟨some "", "web"⟩ := rfl
  rw [elsewhere] at routed
  contradiction

end IngressTemplate

end ReconcileLoop
