import ReconcileLoop.Proofs.Object.Laws
import ReconcileLoop.Proofs.Store.Edits
import ReconcileLoop.Reconcile.Pass

namespace ReconcileLoop

/-! # Laws of primaries and templates

What passes rely on: to write the status of a primary changes neither what it asks for nor its
metadata, and the status reads back as it was written; a template takes over what a dependent reports
and nothing of its metadata; and the templates of one controller settle the whole status among them.
Apps and services keep these laws.
-/

class LawfulPrimary (α : Type) {σ : Type} [Primary α σ] : Prop extends LawfulResource α where
  metadata_setStatus (primary : α) (status : σ) :
    Resource.metadata (Primary.setStatus primary status) = Resource.metadata primary
  status_setStatus (primary : α) (status : σ) :
    Primary.status (Primary.setStatus primary status) = status
  status_withMetadata (primary : α) (given : Metadata) :
    Primary.status (Resource.withMetadata primary given) = Primary.status primary
  replaceStatus_setStatus (primary : α) (status : σ) (differs : status ≠ Primary.status primary) :
    Resource.replaceStatus primary (Primary.setStatus primary status) =
      some (Primary.setStatus primary status)

namespace Template

variable {α σ δ : Type} [Primary α σ] [Resource δ]

structure Lawful (template : Template α σ δ) : Prop where
  render_setStatus (primary : α) (status : σ) :
    template.render (Primary.setStatus primary status) = template.render primary
  render_stamped (primary : α) (fresh : String) (version : Nat) :
    template.render (Resource.withMetadata primary
      (Store.stamped fresh version (Resource.metadata primary))) = template.render primary
  /-- What an object with a key asks for has a name. -/
  named (primary : α) (key : Key) (own : Resource.key primary = .ok key) (rendered : δ)
    (asked : template.render primary = some rendered) :
    ∃ name, name ≠ "" ∧ (Resource.metadata rendered).name = some name
  observe_withMetadata (object : δ) (given : Metadata) (status : σ) :
    template.observe (Resource.withMetadata object given) status = template.observe object status

def report (template : Template α σ δ) (found? : Option δ) (status : σ) : σ :=
  match found? with
  | some held => template.observe held status
  | none => template.clear status

end Template

variable {α σ : Type}

def Dependent.reportAll (found? : (dependent : Dependent α σ) → Option (Manifest dependent.type))
    (dependents : List (Dependent α σ)) (status : σ) : σ :=
  dependents.foldl
    (fun status dependent => dependent.template.report (found? dependent) status) status

theorem Dependent.reportAll_congr
    {found? other? : (dependent : Dependent α σ) → Option (Manifest dependent.type)}
    {dependents : List (Dependent α σ)}
    (same : ∀ dependent ∈ dependents, ∀ status,
      dependent.template.report (other? dependent) status =
        dependent.template.report (found? dependent) status) (status : σ) :
    reportAll other? dependents status = reportAll found? dependents status := by
  induction dependents generalizing status with
  | nil => rfl
  | cons dependent rest ih =>
      obtain ⟨here, later⟩ := List.forall_mem_cons.mp same
      simp only [reportAll, List.foldl_cons, here] at ih ⊢
      exact ih later _

structure Reconciler.Lawful [Primary α σ] (reconciler : Reconciler α σ) : Prop where
  templates : ∀ dependent ∈ reconciler.dependents, dependent.template.Lawful
  distinct : (reconciler.dependents.map (·.type)).Nodup
  /-- Nothing of an earlier status is left when all kinds were looked at. -/
  covered (found? : (dependent : Dependent α σ) → Option (Manifest dependent.type))
    (first second : σ) :
    Dependent.reportAll found? reconciler.dependents first =
      Dependent.reportAll found? reconciler.dependents second

instance : LawfulPrimary App where
  metadata_setStatus _ _ := rfl
  status_setStatus _ _ := rfl
  status_withMetadata _ _ := rfl
  replaceStatus_setStatus app _ _ := App.replaceStatus_eq app _

instance : LawfulPrimary Service where
  metadata_setStatus _ _ := rfl
  status_setStatus _ _ := rfl
  status_withMetadata _ _ := rfl
  replaceStatus_setStatus _ _ differs := absurd rfl differs

theorem App.deploymentTemplate_lawful : App.deploymentTemplate.Lawful where
  render_setStatus _ _ := rfl
  render_stamped _ _ _ := rfl
  named app key own rendered asked := by
    change App.renderDeployment app = some rendered at asked
    simp only [App.renderDeployment] at asked
    split at asked
    · contradiction
    · next wanted =>
        obtain ⟨name, _, rfl⟩ := Option.map_eq_some_iff.mp asked
        exact ⟨_, wanted, rfl⟩
  observe_withMetadata _ _ _ := rfl

theorem App.serviceTemplate_lawful : App.serviceTemplate.Lawful where
  render_setStatus _ _ := rfl
  render_stamped _ _ _ := rfl
  named app key own rendered asked := by
    change App.renderService app = some rendered at asked
    simp only [App.renderService] at asked
    split at asked
    · contradiction
    · next wanted =>
        obtain ⟨name, _, rfl⟩ := Option.map_eq_some_iff.mp asked
        exact ⟨_, wanted, rfl⟩
  observe_withMetadata _ _ _ := rfl

theorem IngressTemplate.toTemplate_lawful (template : IngressTemplate) :
    template.toTemplate.Lawful where
  render_setStatus _ _ := rfl
  render_stamped _ _ _ := rfl
  named service key own rendered asked := by
    change template.render service = some rendered at asked
    unfold IngressTemplate.render at asked
    split at asked
    · obtain ⟨name, found, rfl⟩ := Option.map_eq_some_iff.mp asked
      obtain ⟨same, nonempty, _⟩ := Key.name_ne_of_ofParts own
      have names : name = key.name := Option.some.inj (found.symm.trans same)
      exact ⟨name, names ▸ nonempty, rfl⟩
    · contradiction
  observe_withMetadata _ _ _ := rfl

theorem Reconciler.ofApps_lawful (name : String) : (Reconciler.ofApps name).Lawful where
  templates dependent member := by
    simp only [ofApps, List.mem_cons, List.not_mem_nil, or_false] at member
    rcases member with rfl | rfl
    · exact App.deploymentTemplate_lawful
    · exact App.serviceTemplate_lawful
  distinct := by simp [ofApps]
  covered found? first second := by
    simp only [Dependent.reportAll, ofApps, List.foldl_cons, List.foldl_nil, Template.report]
    split <;> split <;> rfl

theorem Reconciler.ofServices_lawful (name : String) (template : IngressTemplate) :
    (Reconciler.ofServices name template).Lawful where
  templates dependent member := by
    simp only [ofServices, List.mem_singleton] at member
    subst member
    exact template.toTemplate_lawful
  distinct := by simp [ofServices]
  covered _ _ _ := rfl

end ReconcileLoop
