import ReconcileLoop.Proofs.Reconcile.Lawful

namespace ReconcileLoop

/-! # Updates that are not passed on

An update of a primary is passed on only if it may change what the primary should own, which is
judged by comparing a few parts of the two states. What a template reads of a primary is nowhere
compared with these parts. A template is `Covered` if they settle what it renders, together with the
name, which an update does not change; then two states between which an update is not passed on ask
for the same dependent (`Template.desired_eq_of_suppressed`). All templates for services and apps
are covered (`Reconciler.desired_of_suppressed`).
-/

variable {α σ δ : Type} [Primary α σ] [Resource δ]

/-- An update of a primary that is not passed on. It is still the same object: the name and the
namespace stay. -/
structure Suppressed (old new : α) : Prop where
  named : (Resource.metadata new).name = (Resource.metadata old).name
  placed : (Resource.metadata new).space = (Resource.metadata old).space
  unaffected : Primary.affectsDependents old new = false

namespace Template

/-- What the dependents of a primary are made from is compared by every update of it. -/
structure Covered (template : Template α σ δ) : Prop where
  identified (old new : α) (suppressed : Suppressed old new) :
    (Resource.metadata new).uid = (Resource.metadata old).uid
  rendered (old new : α) (suppressed : Suppressed old new) :
    template.render new = template.render old

omit [Resource δ] in
/-- The reference by which a primary controls its dependents outlives such an update. -/
theorem Covered.toController?_eq {template : Template α σ δ} (covered : template.Covered)
    {old new : α} (suppressed : Suppressed old new) :
    OwnerReference.toController? new = OwnerReference.toController? old := by
  unfold OwnerReference.toController?
  rw [suppressed.named, covered.identified old new suppressed]

/-- The same dependent in the same namespace with the same owner, nothing, or the same failure. -/
theorem desired_eq_of_suppressed {template : Template α σ δ} (covered : template.Covered)
    {old new : α} (suppressed : Suppressed old new) :
    template.desired new = template.desired old := by
  have moved (owner : OwnerReference) (rendered : δ) :
      adopted new owner rendered = adopted old owner rendered := by
    unfold adopted
    rw [suppressed.placed]
  unfold desired
  rw [covered.rendered old new suppressed, covered.toController?_eq suppressed]
  simp only [moved]

end Template

namespace App

variable {old new : App}

theorem same_of_suppressed (suppressed : Suppressed old new) :
    new.spec = old.spec ∧ new.metadata.uid = old.metadata.uid := by
  have unaffected := suppressed.unaffected
  simp only [Primary.affectsDependents, Bool.or_eq_false_iff, decide_eq_false_iff_not,
    not_not] at unaffected
  exact ⟨unaffected.1.symm, unaffected.2.symm⟩

theorem deploymentTemplate_covered : deploymentTemplate.Covered where
  identified _ _ suppressed := (same_of_suppressed suppressed).2
  rendered old new suppressed := by
    change renderDeployment new = renderDeployment old
    have named : new.metadata.name = old.metadata.name := suppressed.named
    unfold renderDeployment
    rw [(same_of_suppressed suppressed).1, named]

theorem serviceTemplate_covered : serviceTemplate.Covered where
  identified _ _ suppressed := (same_of_suppressed suppressed).2
  rendered old new suppressed := by
    change renderService new = renderService old
    have named : new.metadata.name = old.metadata.name := suppressed.named
    unfold renderService
    rw [(same_of_suppressed suppressed).1, named]

end App

namespace IngressTemplate

theorem same_of_suppressed {old new : Service} (suppressed : Suppressed old new) :
    new.metadata.annotations = old.metadata.annotations ∧
      new.metadata.uid = old.metadata.uid := by
  have unaffected := suppressed.unaffected
  simp only [Primary.affectsDependents, Bool.or_eq_false_iff, decide_eq_false_iff_not,
    not_not] at unaffected
  exact ⟨unaffected.1.symm, unaffected.2.symm⟩

theorem toTemplate_covered (template : IngressTemplate) : template.toTemplate.Covered where
  identified _ _ suppressed := (same_of_suppressed suppressed).2
  rendered old new suppressed := by
    change template.render new = template.render old
    have named : new.metadata.name = old.metadata.name := suppressed.named
    unfold IngressTemplate.render isWanted
    rw [(same_of_suppressed suppressed).1, named]

end IngressTemplate

namespace Reconciler

/-- An update of an app or of a service that is not passed on leaves every dependent that it asks
for as it was: the deployment and the service of an app, and the ingress of a service, whichever
annotation asks for it and however it is to look. -/
theorem desired_of_suppressed (name : String) (template : IngressTemplate) :
    (∀ old new : App, Suppressed old new → ∀ dependent ∈ (ofApps name).dependents,
      dependent.template.desired new = dependent.template.desired old) ∧
    ∀ old new : Service, Suppressed old new → ∀ dependent ∈ (ofServices name template).dependents,
      dependent.template.desired new = dependent.template.desired old := by
  refine ⟨fun old new suppressed dependent member => ?_,
    fun old new suppressed dependent member => ?_⟩
  · simp only [ofApps, List.mem_cons, List.not_mem_nil, or_false] at member
    rcases member with rfl | rfl
    · exact Template.desired_eq_of_suppressed App.deploymentTemplate_covered suppressed
    · exact Template.desired_eq_of_suppressed App.serviceTemplate_covered suppressed
  · simp only [ofServices, List.mem_singleton] at member
    subst member
    exact Template.desired_eq_of_suppressed template.toTemplate_covered suppressed

def deployed : App where
  metadata := { name := some "web", space := some "ns", uid := some "app-1" }
  spec := { deploymentTemplate := { name := "front", image := "nginx" } }

def annotated : Service where
  metadata := {
    name := some "web", space := some "ns", uid := some "svc-1"
    annotations := some ((∅ : TextMap).insert "ingress/http" "true") }

/-- Neither the status of an app nor the content of a service is looked at. -/
theorem desired_of_suppressed_reported :
    let reported : App := Primary.setStatus deployed { deployment := some ⟨1, 1, 1, 1⟩ }
    let opened : Service := { annotated with content := [("spec", .obj [])] }
    Suppressed deployed reported ∧ Suppressed annotated opened ∧
    (∃ deployment, App.deploymentTemplate.desired reported = .ok (some deployment) ∧
      App.deploymentTemplate.desired deployed = .ok (some deployment)) ∧
    ∃ ingress, ({} : IngressTemplate).toTemplate.desired opened = .ok (some ingress) ∧
      ({} : IngressTemplate).toTemplate.desired annotated = .ok (some ingress) := by
  intro reported opened
  have written : Suppressed deployed reported := ⟨rfl, rfl, by decide⟩
  have changed : Suppressed annotated opened := ⟨rfl, rfl, by decide⟩
  obtain ⟨apps, services⟩ := desired_of_suppressed "ctl" {}
  have front := apps deployed reported written ⟨.deployment, App.deploymentTemplate⟩
    (by simp [ofApps])
  have exposed := services annotated opened changed ⟨.ingress, ({} : IngressTemplate).toTemplate⟩
    (by simp [ofServices])
  exact ⟨written, changed, ⟨_, front.trans rfl, rfl⟩, ⟨_, exposed.trans rfl, rfl⟩⟩

end Reconciler

end ReconcileLoop
