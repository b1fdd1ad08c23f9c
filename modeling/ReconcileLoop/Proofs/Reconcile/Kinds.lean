import Mathlib.Data.List.Nodup
import ReconcileLoop.Proofs.Reconcile.Kind

namespace ReconcileLoop

/-! # All kinds, as they were ordered

The kinds of one controller are different, so each is brought in line in its own store, and it does
not matter to it what became of those before. A run ends at the first kind that something stands in
the way of (`Dependent.reached`): the kinds up to there move toward what was ordered, and those after
it are left alone.
-/

variable {α σ : Type} [Primary α σ]

namespace Dependent

def order (dependent : Dependent α σ) (primary : α) : Order (Manifest dependent.type) :=
  dependent.template.order primary

def obstacle? (dependent : Dependent α σ) (world : World α) (primary : α) :
    Option ReconcileError :=
  (dependent.order primary).obstacle? (world.stored dependent.type)

def found? (world : World α) (primary : α) (dependent : Dependent α σ) :
    Option (Manifest dependent.type) :=
  (dependent.order primary).found? (world.stored dependent.type)

/-- The kinds that a run gets to. -/
def reached (world : World α) (primary : α) : List (Dependent α σ) → List (Dependent α σ)
  | [] => []
  | dependent :: rest =>
      if (dependent.obstacle? world primary).isSome then [dependent]
      else dependent :: reached world primary rest

variable {world other : World α} {primary : α} {kinds : List (Dependent α σ)}

theorem mem_of_reached {dependent : Dependent α σ}
    (member : dependent ∈ reached world primary kinds) : dependent ∈ kinds := by
  induction kinds with
  | nil => exact member
  | cons first rest ih =>
      unfold reached at member
      split at member
      · rw [List.mem_singleton.mp member]
        exact List.mem_cons_self ..
      · rcases List.mem_cons.mp member with rfl | later
        · exact List.mem_cons_self ..
        · exact List.mem_cons_of_mem _ (ih later)

theorem head_mem_reached (dependent : Dependent α σ) (rest : List (Dependent α σ)) :
    dependent ∈ reached world primary (dependent :: rest) := by
  unfold reached
  split <;> exact List.mem_cons_self ..

theorem mem_reached_cons {dependent first : Dependent α σ} {rest : List (Dependent α σ)}
    (member : dependent ∈ reached world primary (first :: rest)) :
    dependent = first ∨ dependent ∈ reached world primary rest := by
  unfold reached at member
  split at member
  · exact .inl (List.mem_singleton.mp member)
  · exact List.mem_cons.mp member

theorem reached_cons {dependent : Dependent α σ} {rest : List (Dependent α σ)}
    (free : dependent.obstacle? world primary = none) :
    reached world primary (dependent :: rest) = dependent :: reached world primary rest := by
  simp [reached, free]

theorem reached_congr {second : α}
    (same : ∀ dependent ∈ kinds, dependent.obstacle? other second =
      dependent.obstacle? world primary) :
    reached other second kinds = reached world primary kinds := by
  induction kinds with
  | nil => rfl
  | cons first rest ih =>
      obtain ⟨here, later⟩ := List.forall_mem_cons.mp same
      simp only [reached, here, ih later]

theorem reached_eq_self
    (free : ∀ dependent ∈ kinds, dependent.obstacle? world primary = none) :
    reached world primary kinds = kinds := by
  induction kinds with
  | nil => rfl
  | cons first rest ih =>
      obtain ⟨here, later⟩ := List.forall_mem_cons.mp free
      rw [reached_cons here, ih later]

end Dependent

namespace World

/-- Kinds on the way to what a primary ordered, while others are left alone. -/
structure Toward (before after : World α) (primary : α) (kinds : List (Dependent α σ)) :
    Prop where
  moved : ∀ dependent ∈ kinds,
    (dependent.order primary).Toward (before.stored dependent.type) (after.stored dependent.type)
  others (type : BuiltIn) (outside : ∀ dependent ∈ kinds, dependent.type ≠ type) :
    after.stored type = before.stored type

/-- A run over dependents keeps the caches, and the feeds tell of what it does. -/
structure Told (before after : World α) : Prop where
  caches (type : BuiltIn) :
    (after.dependents.get type).cache = (before.dependents.get type).cache
  tells (type : BuiltIn) :
    (before.dependents.get type).api.store.Tells (after.dependents.get type).api.store

theorem Told.refl (world : World α) : world.Told world :=
  ⟨fun _ => rfl, fun _ => .refl _⟩

theorem Told.trans {before middle after : World α} (start : before.Told middle)
    (finish : middle.Told after) : before.Told after where
  caches type := (finish.caches type).trans (start.caches type)
  tells type := (start.tells type).trans (finish.tells type)

def withAccess (world : World α) (type : BuiltIn) (access : Access (Manifest type)) : World α :=
  { world with dependents := world.dependents.set type access }

@[simp] theorem get_withAccess_same (world : World α) (type : BuiltIn)
    (access : Access (Manifest type)) : (world.withAccess type access).dependents.get type = access :=
  PerKind.get_set_same ..

theorem get_withAccess_other {world : World α} {type other : BuiltIn}
    {access : Access (Manifest type)} (differ : other ≠ type) :
    (world.withAccess type access).dependents.get other = world.dependents.get other :=
  PerKind.get_set_other differ

theorem withAccess_get (world : World α) (type : BuiltIn) :
    world.withAccess type (world.dependents.get type) = world := by
  cases type <;> rfl

theorem stored_withAccess_same (world : World α) (type : BuiltIn)
    (access : Access (Manifest type)) :
    (world.withAccess type access).stored type = access.api.store.objects := by
  rw [stored, get_withAccess_same]

theorem stored_withAccess_other {world : World α} {type other : BuiltIn}
    {access : Access (Manifest type)} (differ : other ≠ type) :
    (world.withAccess type access).stored other = world.stored other := by
  rw [stored, get_withAccess_other differ, stored]

theorem told_withAccess {world : World α} {type : BuiltIn} {access : Access (Manifest type)}
    (cache : access.cache = (world.dependents.get type).cache)
    (tells : (world.dependents.get type).api.store.Tells access.api.store) :
    world.Told (world.withAccess type access) where
  caches other := by
    by_cases same : other = type
    · subst same
      rw [get_withAccess_same, cache]
    · rw [get_withAccess_other same]
  tells other := by
    by_cases same : other = type
    · subst same
      rw [get_withAccess_same]
      exact tells
    · rw [get_withAccess_other same]
      exact .refl _

end World

namespace Dependent

variable {world after : World α} {primary : α} {status : σ} {kinds : List (Dependent α σ)}
  {result : Except ReconcileError (Bool × σ)}

theorem sync_eq (dependent : Dependent α σ) (world : World α) (primary : α) (status : σ) :
    dependent.sync world primary status =
      (((world.dependents.get dependent.type).sync dependent.template primary status).1,
        world.withAccess dependent.type
          ((world.dependents.get dependent.type).sync dependent.template primary status).2) :=
  rfl

theorem syncAll_cons {dependent : Dependent α σ} {rest : List (Dependent α σ)}
    (ran : syncAll world primary status (dependent :: rest) = (result, after)) :
    ∃ outcome access,
      (world.dependents.get dependent.type).sync dependent.template primary status =
        (outcome, access) ∧
      ((∃ error, outcome = .error error ∧ result = .error error ∧
          after = world.withAccess dependent.type access) ∨
        ∃ changed observed later, outcome = .ok (changed, observed) ∧
          syncAll (world.withAccess dependent.type access) primary observed rest = (later, after) ∧
          ((∃ error, later = .error error ∧ result = .error error) ∨
            ∃ more final, later = .ok (more, final) ∧ result = .ok (changed || more, final))) := by
  unfold syncAll at ran
  rw [sync_eq] at ran
  cases synced :
      (world.dependents.get dependent.type).sync dependent.template primary status with
  | mk outcome access =>
      refine ⟨outcome, access, rfl, ?_⟩
      rw [synced] at ran
      cases outcome with
      | error error =>
          cases ran
          exact .inl ⟨error, rfl, rfl, rfl⟩
      | ok found =>
          obtain ⟨changed, observed⟩ := found
          refine .inr ⟨changed, observed, ?_⟩
          simp only at ran
          split at ran
          · next error last others =>
              cases ran
              exact ⟨_, rfl, others, .inl ⟨error, rfl, rfl⟩⟩
          · next more final last others =>
              cases ran
              exact ⟨_, rfl, others, .inr ⟨more, final, rfl, rfl⟩⟩

theorem syncAll_primary (ran : syncAll world primary status kinds = (result, after)) :
    after.primary = world.primary := by
  induction kinds generalizing world status result with
  | nil =>
      cases ran
      rfl
  | cons dependent rest ih =>
      obtain ⟨outcome, access, _, ⟨_, _, _, rfl⟩ | ⟨_, _, _, _, others, _⟩⟩ := syncAll_cons ran
      · rfl
      · have kept := ih others
        exact kept

structure Ready (world : World α) (primary : α) (kinds : List (Dependent α σ)) : Prop where
  lawful : ∀ dependent ∈ kinds, dependent.template.Lawful
  distinct : (kinds.map (·.type)).Nodup
  inSync : ∀ dependent ∈ kinds, (world.dependents.get dependent.type).InSync
  able : CanOwn primary

namespace Ready

variable {dependent : Dependent α σ} {rest : List (Dependent α σ)}

theorem differ (ready : Ready world primary (dependent :: rest)) :
    ∀ other ∈ rest, other.type ≠ dependent.type := by
  intro other member same
  obtain ⟨fresh, _⟩ := List.nodup_cons.mp ready.distinct
  exact fresh (List.mem_map.mpr ⟨other, member, same⟩)

theorem tail (ready : Ready world primary (dependent :: rest))
    (access : Access (Manifest dependent.type)) :
    Ready (world.withAccess dependent.type access) primary rest where
  lawful other member := ready.lawful other (List.mem_cons_of_mem _ member)
  distinct := (List.nodup_cons.mp ready.distinct).2
  inSync other member := by
    rw [World.get_withAccess_other (ready.differ other member)]
    exact ready.inSync other (List.mem_cons_of_mem _ member)
  able := ready.able

theorem lawful_head (ready : Ready world primary (dependent :: rest)) :
    dependent.template.Lawful :=
  ready.lawful dependent (List.mem_cons_self ..)

theorem inSync_head (ready : Ready world primary (dependent :: rest)) :
    (world.dependents.get dependent.type).InSync :=
  ready.inSync dependent (List.mem_cons_self ..)

theorem stored_tail (ready : Ready world primary (dependent :: rest))
    (access : Access (Manifest dependent.type)) :
    ∀ other ∈ rest,
      (world.withAccess dependent.type access).stored other.type = world.stored other.type :=
  fun other member => World.stored_withAccess_other (ready.differ other member)

theorem obstacle?_tail (ready : Ready world primary (dependent :: rest))
    (access : Access (Manifest dependent.type)) :
    ∀ other ∈ rest, other.obstacle? (world.withAccess dependent.type access) primary =
      other.obstacle? world primary := by
  intro other member
  rw [obstacle?, ready.stored_tail access other member, obstacle?]

end Ready

theorem syncAll_toward (ready : Ready world primary kinds)
    (ran : syncAll world primary status kinds = (result, after)) :
    world.Told after ∧ world.Toward after primary (reached world primary kinds) := by
  induction kinds generalizing world status result with
  | nil =>
      cases ran
      exact ⟨.refl _, ⟨by simp [reached], fun _ _ => rfl⟩⟩
  | cons dependent rest ih =>
      obtain ⟨outcome, access, synced, phase⟩ := syncAll_cons ran
      have inSync := ready.inSync_head
      have cache := (Access.sync_edits inSync ready.lawful_head ready.able synced).1
      have told := World.told_withAccess cache
        (Access.sync_tells inSync ready.lawful_head ready.able synced)
      have toward := Access.sync_toward inSync ready.lawful_head ready.able synced
      have here := world.stored_withAccess_same dependent.type access
      have there := ready.stored_tail access
      rcases phase with
        ⟨error, _, _, rfl⟩ | ⟨changed, observed, later, rfl, others, _⟩
      · refine ⟨told, ⟨fun other member => ?_, fun type outside => ?_⟩⟩
        · rcases mem_reached_cons member with rfl | member
          · rw [here]
            exact toward
          · rw [there other (mem_of_reached member)]
            exact .refl _ _
        · exact World.stored_withAccess_other (outside _ (head_mem_reached ..)).symm
      · obtain ⟨after_told, after_toward⟩ := ih (ready.tail access) others
        have free : dependent.obstacle? world primary = none :=
          (Access.sync_reports inSync ready.lawful_head ready.able synced).1
        rw [reached_congr (ready.obstacle?_tail access)] at after_toward
        rw [reached_cons free]
        refine ⟨told.trans after_told, ⟨fun other member => ?_, fun type outside => ?_⟩⟩
        · rcases List.mem_cons.mp member with rfl | member
          · rw [after_toward.others other.type fun next later =>
              ready.differ next (mem_of_reached later), here]
            exact toward
          · rw [← there other (mem_of_reached member)]
            exact after_toward.moved other member
        · obtain ⟨differ, outside⟩ := List.forall_mem_cons.mp outside
          rw [after_toward.others type outside, World.stored_withAccess_other differ.symm]

/-- The kinds that come later leave the store of the first one alone. -/
theorem Ready.stored_head {dependent : Dependent α σ} {rest : List (Dependent α σ)}
    (ready : Ready world primary (dependent :: rest)) {access : Access (Manifest dependent.type)}
    (others : syncAll (world.withAccess dependent.type access) primary status rest =
      (result, after)) :
    after.stored dependent.type = access.api.store.objects := by
  obtain ⟨_, toward⟩ := syncAll_toward (ready.tail access) others
  rw [toward.others dependent.type fun next member => ready.differ next (mem_of_reached member)]
  exact world.stored_withAccess_same dependent.type access

theorem syncAll_reports (ready : Ready world primary kinds) {changed : Bool} {observed : σ}
    (ran : syncAll world primary status kinds = (.ok (changed, observed), after)) :
    (∀ dependent ∈ kinds, dependent.obstacle? world primary = none) ∧
      (∀ dependent ∈ kinds, ∀ key object,
        dependent.template.wanted primary = some (key, object) →
          ∃ held, (after.stored dependent.type)[key]? = some held) ∧
      observed = reportAll (found? after primary) kinds status := by
  induction kinds generalizing world status changed observed with
  | nil =>
      cases ran
      exact ⟨by simp, by simp, rfl⟩
  | cons dependent rest ih =>
      obtain ⟨outcome, access, synced, phase⟩ := syncAll_cons ran
      rcases phase with
        ⟨error, _, failed, _⟩ |
          ⟨first, seen, later, rfl, others, ⟨_, _, failed⟩ | ⟨more, final, rfl, done⟩⟩
      · contradiction
      · contradiction
      · cases done
        obtain ⟨free, there, reported⟩ := ih (ready.tail access) others
        obtain ⟨freeHere, thereHere, reportedHere⟩ :=
          Access.sync_reports ready.inSync_head ready.lawful_head ready.able synced
        have kept := ready.stored_head others
        refine ⟨fun other member => ?_, fun other member => ?_, ?_⟩
        · rcases List.mem_cons.mp member with rfl | member
          · exact freeHere
          · rw [← ready.obstacle?_tail access other member]
            exact free other member
        · rcases List.mem_cons.mp member with rfl | member
          · rw [kept]
            exact thereHere
          · exact there other member
        · rw [reported, reportedHere, ← kept]
          rfl

/-- Dependents that are in line are tidy, if their stores were asked for each delete. -/
theorem syncAll_tidy (ready : Ready world primary kinds)
    (silent : ∀ dependent ∈ kinds,
      (world.dependents.get dependent.type).api.replies.value .delete = [])
    {changed : Bool} {observed : σ}
    (ran : syncAll world primary status kinds = (.ok (changed, observed), after)) :
    ∀ dependent ∈ kinds, (dependent.order primary).Tidy (after.stored dependent.type) := by
  induction kinds generalizing world status changed observed with
  | nil => simp
  | cons dependent rest ih =>
      obtain ⟨here, later⟩ := List.forall_mem_cons.mp silent
      obtain ⟨outcome, access, synced, phase⟩ := syncAll_cons ran
      rcases phase with
        ⟨_, _, failed, _⟩ | ⟨_, _, _, rfl, others, ⟨_, _, failed⟩ | ⟨_, _, rfl, _⟩⟩
      · contradiction
      · contradiction
      · refine List.forall_mem_cons.mpr
          ⟨?_, ih (ready.tail access) (fun other member => ?_) others⟩
        · rw [ready.stored_head others]
          exact Access.sync_tidy ready.inSync_head ready.lawful_head ready.able here synced
        · rw [World.get_withAccess_other (ready.differ other member)]
          exact later other member

def firstObstacle? (world : World α) (primary : α) (kinds : List (Dependent α σ)) :
    Option ReconcileError :=
  kinds.findSome? fun dependent => dependent.obstacle? world primary

theorem firstObstacle?_congr {other : World α} {second : α}
    (same : ∀ dependent ∈ kinds, dependent.obstacle? other second =
      dependent.obstacle? world primary) :
    firstObstacle? other second kinds = firstObstacle? world primary kinds := by
  induction kinds with
  | nil => rfl
  | cons first rest ih =>
      obtain ⟨here, later⟩ := List.forall_mem_cons.mp same
      have tail := ih later
      simp only [firstObstacle?, List.findSome?_cons, here] at tail ⊢
      rw [tail]

theorem firstObstacle?_eq_none :
    firstObstacle? world primary kinds = none ↔
      ∀ dependent ∈ kinds, dependent.obstacle? world primary = none :=
  List.findSome?_eq_none_iff

theorem firstObstacle?_cons (dependent : Dependent α σ) (rest : List (Dependent α σ)) :
    firstObstacle? world primary (dependent :: rest) =
      (dependent.obstacle? world primary).or (firstObstacle? world primary rest) := by
  rw [firstObstacle?, List.findSome?_cons, firstObstacle?]
  cases dependent.obstacle? world primary <;> rfl

/-- Calm stores are left tidy as far as they are reached, and the first thing in the way is what a
run fails for. -/
theorem syncAll_calm (ready : Ready world primary kinds)
    (calm : ∀ dependent ∈ kinds, (world.dependents.get dependent.type).api.Calm)
    (ran : syncAll world primary status kinds = (result, after)) :
    (∀ dependent ∈ reached world primary kinds,
      (dependent.order primary).Tidy (after.stored dependent.type)) ∧
      FailsFor (firstObstacle? world primary kinds) result := by
  induction kinds generalizing world status result with
  | nil =>
      cases ran
      exact ⟨by simp [reached], ⟨_, rfl⟩⟩
  | cons dependent rest ih =>
      obtain ⟨calmHere, calmRest⟩ := List.forall_mem_cons.mp calm
      obtain ⟨outcome, access, synced, phase⟩ := syncAll_cons ran
      obtain ⟨tidy, judged⟩ := Access.sync_calm ready.inSync_head ready.lawful_head ready.able
        calmHere synced
      have judged : FailsFor (dependent.obstacle? world primary) outcome := judged
      have here := world.stored_withAccess_same dependent.type access
      rw [firstObstacle?_cons]
      cases blocked : dependent.obstacle? world primary with
      | some error =>
          rw [blocked] at judged
          have refused : outcome = .error error := judged
          rcases phase with ⟨other, same, failed, rfl⟩ | ⟨_, _, _, done, _⟩
          · refine ⟨fun next member => ?_, ?_⟩
            · simp only [reached, blocked, Option.isSome_some, if_true, List.mem_singleton] at member
              subst member
              rw [here]
              exact tidy
            · obtain rfl : other = error := Except.error.inj (same.symm.trans refused)
              exact failed
          · rw [refused] at done
            contradiction
      | none =>
          rw [blocked] at judged
          obtain ⟨found, finished⟩ := judged
          rcases phase with ⟨_, failed, _⟩ | ⟨changed, observed, later, _, others, outcomes⟩
          · rw [finished] at failed
            contradiction
          · have calmTail : ∀ other ∈ rest,
                ((world.withAccess dependent.type access).dependents.get other.type).api.Calm := by
              intro other member
              rw [World.get_withAccess_other (ready.differ other member)]
              exact calmRest other member
            obtain ⟨tidyRest, judgedRest⟩ := ih (ready.tail access) calmTail others
            have same := ready.obstacle?_tail access
            rw [firstObstacle?_congr same] at judgedRest
            rw [reached_congr same] at tidyRest
            rw [reached_cons blocked, Option.none_or]
            refine ⟨fun next member => ?_, ?_⟩
            · rcases List.mem_cons.mp member with rfl | member
              · rw [ready.stored_head others]
                exact tidy
              · exact tidyRest next member
            · rcases outcomes with ⟨error, rfl, failed⟩ | ⟨more, final, rfl, done⟩
              · rw [failed]
                exact judgedRest.error_congr
              · rw [done, judgedRest.free]
                exact ⟨_, rfl⟩

theorem syncAll_idle (ready : Ready world primary kinds)
    (tidy : ∀ dependent ∈ kinds, (dependent.order primary).Tidy (world.stored dependent.type))
    (free : ∀ dependent ∈ kinds, dependent.obstacle? world primary = none) (status : σ) :
    syncAll world primary status kinds =
      (.ok (false, reportAll (found? world primary) kinds status), world) := by
  induction kinds generalizing status with
  | nil => rfl
  | cons dependent rest ih =>
      obtain ⟨tidyHere, tidyRest⟩ := List.forall_mem_cons.mp tidy
      obtain ⟨freeHere, freeRest⟩ := List.forall_mem_cons.mp free
      have idle : dependent.sync world primary status =
          (.ok (false, dependent.template.report (found? world primary dependent) status), world) := by
        rw [sync_eq, Access.sync_idle ready.inSync_head ready.lawful_head ready.able tidyHere
          freeHere status, World.withAccess_get]
        rfl
      have tail : Ready world primary rest := by
        rw [← world.withAccess_get dependent.type]
        exact ready.tail _
      have others := ih tail tidyRest freeRest
        (dependent.template.report (found? world primary dependent) status)
      simp only [syncAll, idle, others, Bool.or_self]
      rfl

end Dependent

namespace World.Toward

variable {before after : World α} {primary : α} {kinds : List (Dependent α σ)}

theorem each (toward : before.Toward after primary (Dependent.reached before primary kinds))
    (distinct : (kinds.map (·.type)).Nodup) {dependent : Dependent α σ}
    (member : dependent ∈ kinds) :
    (dependent.order primary).Toward (before.stored dependent.type)
      (after.stored dependent.type) := by
  by_cases moved : dependent ∈ Dependent.reached before primary kinds
  · exact toward.moved dependent moved
  · have outside : ∀ other ∈ Dependent.reached before primary kinds,
        other.type ≠ dependent.type := by
      intro other reached same
      have one : other = dependent :=
        List.inj_on_of_nodup_map distinct (Dependent.mem_of_reached reached) member same
      exact moved (one ▸ reached)
    rw [toward.others dependent.type outside]
    exact .refl _ _

theorem obstacle?_eq (toward : before.Toward after primary (Dependent.reached before primary kinds))
    (distinct : (kinds.map (·.type)).Nodup) (keyed : ∀ type, Keyed (before.stored type)) :
    ∀ dependent ∈ kinds,
      dependent.obstacle? after primary = dependent.obstacle? before primary := by
  intro dependent member
  exact (toward.each distinct member).obstacle?_eq Template.order_sound (keyed dependent.type)

end World.Toward

end ReconcileLoop
