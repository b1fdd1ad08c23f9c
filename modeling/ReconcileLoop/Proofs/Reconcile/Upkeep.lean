import ReconcileLoop.Proofs.Store.Edits
import ReconcileLoop.Reconcile.Dependent

namespace ReconcileLoop

/-! # The deletes and the create of one kind

A run of deletes goes on when something is gone already, and ends at the first other failure
(`ScriptedStore.deleteAll_cons`). A dependent that is to be there is created, or else found there
(`ScriptedStore.ensure_phases`). Neither does anything else to the store.
-/

namespace ScriptedStore

variable {δ : Type} [Resource δ] {api after : ScriptedStore δ}

theorem deleteAll_cons {dependent : δ} {rest : List δ} {result : Except ReconcileError Bool}
    (ran : api.deleteAll (dependent :: rest) = (result, after)) :
    (∃ fault, Resource.key dependent = .error fault ∧ result = .error (.malformedKey fault) ∧
      after = api) ∨
    ∃ key answer next, Resource.key dependent = .ok key ∧ api.delete key = (answer, next) ∧
      ((∃ outcome, answer = .ok () ∧ next.deleteAll rest = (outcome, after) ∧
          result = outcome.map fun _ => true) ∨
        (∃ error, answer = .error error ∧ error.isNotFound = true ∧
          next.deleteAll rest = (result, after)) ∨
        ∃ error, answer = .error error ∧ error.isNotFound = false ∧
          result = .error (.store error) ∧ after = next) := by
  unfold deleteAll at ran
  cases own : Resource.key dependent with
  | error fault =>
      simp only [own] at ran
      cases ran
      exact .inl ⟨fault, rfl, rfl, rfl⟩
  | ok key =>
      simp only [own] at ran
      refine .inr ⟨key, ?_⟩
      cases deleted : api.delete key with
      | mk answer next =>
          refine ⟨answer, next, rfl, rfl, ?_⟩
          rw [deleted] at ran
          cases answer with
          | ok _ =>
              simp only at ran
              cases others : next.deleteAll rest with
              | mk outcome last =>
                  rw [others] at ran
                  cases outcome with
                  | ok more => cases ran; exact .inl ⟨_, rfl, rfl, rfl⟩
                  | error error => cases ran; exact .inl ⟨_, rfl, rfl, rfl⟩
          | error error =>
              simp only at ran
              split at ran
              · next gone => exact .inr (.inl ⟨error, rfl, gone, ran⟩)
              · next failed =>
                  cases ran
                  exact .inr (.inr ⟨error, rfl, by simpa using failed, rfl, rfl⟩)

theorem deleteAll_edited {dependents : List δ} {result : Except ReconcileError Bool}
    (ran : api.deleteAll dependents = (result, after)) :
    ∃ edits, api.Edited edits after ∧ ∀ edit ∈ edits, ∃ dependent ∈ dependents, ∃ key gone,
      Resource.key dependent = .ok key ∧ edit = .removed key gone := by
  induction dependents generalizing api result with
  | nil =>
      cases ran
      exact ⟨[], .refl _, by simp⟩
  | cons dependent rest ih =>
      have later {next : ScriptedStore δ} {result : Except ReconcileError Bool}
          (others : next.deleteAll rest = (result, after)) :
          ∃ edits, next.Edited edits after ∧ ∀ edit ∈ edits, ∃ other ∈ dependent :: rest,
            ∃ key gone, Resource.key other = .ok key ∧ edit = .removed key gone := by
        obtain ⟨edits, edited, removes⟩ := ih others
        refine ⟨edits, edited, fun edit member => ?_⟩
        obtain ⟨other, inside, key, gone, own, same⟩ := removes edit member
        exact ⟨other, List.mem_cons_of_mem _ inside, key, gone, own, same⟩
      rcases deleteAll_cons ran with ⟨_, _, _, rfl⟩ | ⟨key, answer, next, own, deleted, phase⟩
      · exact ⟨[], .refl _, by simp⟩
      · rcases delete_edited deleted with ⟨gone, rfl, _, first⟩ | ⟨⟨error, rfl⟩, first⟩
        · rcases phase with ⟨_, _, others, _⟩ | ⟨_, impossible, _⟩ | ⟨_, impossible, _⟩
          · obtain ⟨edits, second, removes⟩ := later others
            refine ⟨.removed key gone :: edits, first.trans second, fun edit member => ?_⟩
            rcases List.mem_cons.mp member with rfl | member
            · exact ⟨dependent, List.mem_cons_self .., key, gone, own, rfl⟩
            · exact removes edit member
          · contradiction
          · contradiction
        · rcases phase with ⟨_, impossible, _⟩ | ⟨_, _, _, others⟩ | ⟨_, _, _, _, rfl⟩
          · contradiction
          · obtain ⟨edits, second, removes⟩ := later others
            exact ⟨edits, first.trans second, removes⟩
          · exact ⟨[], first, by simp⟩

/-- A run of deletes that succeeds leaves none of the dependents, whatever calls were made to fail:
what was not deleted was not there. -/
theorem deleteAll_absent_of_ok {dependents : List δ} {deleted : Bool}
    (ran : api.deleteAll dependents = (.ok deleted, after))
    (silent : api.replies.value .delete = []) :
    ∀ dependent ∈ dependents, ∀ key, Resource.key dependent = .ok key →
      after.store.objects[key]? = none := by
  induction dependents generalizing api deleted with
  | nil => simp
  | cons dependent rest ih =>
      rcases deleteAll_cons ran with ⟨_, _, failed, _⟩ | ⟨place, answer, next, own, called, phase⟩
      · contradiction
      · obtain ⟨count, later, done⟩ : ∃ count, next.deleteAll rest = (.ok count, after) ∧
            ∀ error, answer = .error error → error.isNotFound = true := by
          rcases phase with ⟨outcome, rfl, later, ran⟩ | ⟨error, rfl, missing, later⟩ |
            ⟨_, _, _, failed, _⟩
          · cases outcome with
            | ok count => exact ⟨count, later, by simp⟩
            | error error => contradiction
          · exact ⟨deleted, later, by rintro _ ⟨⟩; exact missing⟩
          · contradiction
        intro shown member key named
        rcases List.mem_cons.mp member with rfl | member
        · obtain rfl : key = place := Except.ok.inj (named.symm.trans own)
          obtain ⟨removed, edited, removes⟩ := deleteAll_edited later
          refine edited.store.objects.absent (delete_absent called silent done) fun made created => ?_
          obtain ⟨_, _, _, _, _, impossible⟩ := removes _ created
          contradiction
        · exact ih later (delete_silent called silent) shown member key named

theorem deleteAll_reliable {dependents : List δ} {result : Except ReconcileError Bool}
    (ran : api.deleteAll dependents = (result, after)) (reliable : api.Reliable)
    (named : ∀ dependent ∈ dependents, ∃ key, Resource.key dependent = .ok key) :
    ∃ deleted, result = .ok deleted := by
  induction dependents generalizing api result with
  | nil =>
      cases ran
      exact ⟨false, rfl⟩
  | cons dependent rest ih =>
      obtain ⟨⟨key, own⟩, others⟩ := List.forall_mem_cons.mp named
      rcases deleteAll_cons ran with ⟨_, nameless, _⟩ | ⟨place, answer, next, same, called, phase⟩
      · rw [own] at nameless
        contradiction
      · obtain ⟨edits, edited⟩ := delete_edits called
        have reliableNext := edited.reliable reliable
        rcases phase with ⟨outcome, _, later, rfl⟩ | ⟨_, _, _, later⟩ | ⟨error, rfl, failed, _⟩
        · obtain ⟨count, rfl⟩ := ih later reliableNext others
          exact ⟨true, rfl⟩
        · -- A delete that finds nothing does not end the run.
          exact ih later reliableNext others
        · rw [delete_reliable called reliable] at failed
          contradiction

/-- To ensure that a dependent is there, it is created, and read back if that can be done; or it is
found there; or a call failed. -/
theorem ensure_phases {key : Key} {desired : δ} {result : Except ReconcileError (δ × Bool)}
    (ran : api.ensure key desired = (result, after)) :
    ∃ answer next, api.create desired = (answer, next) ∧
      ((∃ made seen found, answer = .ok made ∧ next.get key = (seen, after) ∧
          result = .ok (found, true) ∧ (seen = .ok (some found) ∨ found = made)) ∨
        ∃ error, answer = .error error ∧
          ((∃ found, next.get key = (.ok (some found), after) ∧ result = .ok (found, false)) ∨
            (∃ failure, result = .error (.store failure)) ∧ next.Edited [] after)) := by
  unfold ensure at ran
  cases called : api.create desired with
  | mk answer next =>
      refine ⟨answer, next, rfl, ?_⟩
      rw [called] at ran
      cases looked : next.get key with
      | mk seen last =>
          have read := get_edited looked
          cases answer with
          | ok made =>
              refine .inl ⟨made, seen, ?_⟩
              simp only [looked] at ran
              cases seen with
              | error failure => cases ran; exact ⟨made, rfl, rfl, rfl, .inr rfl⟩
              | ok object? =>
                  cases object? with
                  | none => cases ran; exact ⟨made, rfl, rfl, rfl, .inr rfl⟩
                  | some fresh => cases ran; exact ⟨fresh, rfl, rfl, rfl, .inl rfl⟩
          | error error =>
              refine .inr ⟨error, rfl, ?_⟩
              simp only [looked] at ran
              split at ran
              · cases seen with
                | error failure => cases ran; exact .inr ⟨⟨failure, rfl⟩, read⟩
                | ok object? =>
                    cases object? with
                    | none => cases ran; exact .inr ⟨⟨error, rfl⟩, read⟩
                    | some existing => cases ran; exact .inl ⟨existing, rfl, rfl⟩
              · cases ran
                exact .inr ⟨⟨error, rfl⟩, .refl _⟩

theorem ensure_edited {key : Key} {desired : δ} {result : Except ReconcileError (δ × Bool)}
    (ran : api.ensure key desired = (result, after)) :
    ∃ edits, api.Edited edits after ∧ ∀ edit ∈ edits, ∃ place made,
      edit = .created place made ∧ Resource.key desired = .ok place ∧
        Store.StampOf desired made := by
  obtain ⟨answer, next, called, phase⟩ := ensure_phases ran
  rcases create_edited called with ⟨place, made, rfl, own, stamp, first⟩ | ⟨⟨error, rfl⟩, first⟩
  · rcases phase with ⟨_, _, _, _, looked, _⟩ | ⟨_, impossible, _⟩
    · refine ⟨[.created place made], first.trans (get_edited looked), fun edit member => ?_⟩
      exact ⟨place, made, List.mem_singleton.mp member, own, stamp⟩
    · contradiction
  · rcases phase with ⟨_, _, _, impossible, _⟩ | ⟨_, _, ⟨_, looked, _⟩ | ⟨_, nothing⟩⟩
    · contradiction
    · exact ⟨[], first.trans (get_edited looked), by simp⟩
    · exact ⟨[], first.trans nothing, by simp⟩

end ScriptedStore

end ReconcileLoop
