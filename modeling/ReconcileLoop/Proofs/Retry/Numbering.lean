import Mathlib.Data.List.Forall2
import ReconcileLoop.Proofs.Limiter.Counts
import ReconcileLoop.Retry

namespace ReconcileLoop

/-! # Attempts are numbered, and there are not too many

Nobody but the limiter remembers how often a key was tried, and any number of keys share the
limiter. `Retry.Record` keeps what was decided, and `Retry.Record.Kept` says that the limiter counts
for each key the requeues since the last other decision about it. So the requeues are numbered from
one, the budget bounds them, and a key is given up, with one report, when the budget is used up.
-/

namespace Decision

def isRequeued : Decision → Bool
  | requeued _ => true
  | _ => false

def isAbandoned : Decision → Bool
  | abandoned .. => true
  | _ => false

/-- How often the key was requeued since the last other decision, the newest decision first. -/
def streak (history : List Decision) : Nat := (history.takeWhile isRequeued).length

theorem streak_cons (decision : Decision) (history : List Decision) :
    streak (decision :: history) = if decision.isRequeued then streak history + 1 else 0 := by
  unfold streak
  rw [List.takeWhile_cons]
  split <;> rfl

/-- Every requeue in the history of a key has the number that is next, and the budget allows it. -/
def Numbered (budget : Nat) : List Decision → Prop
  | [] => True
  | decision :: earlier =>
      (∀ attempt, decision = requeued attempt →
        attempt = streak earlier + 1 ∧ attempt ≤ budget) ∧ Numbered budget earlier

theorem Numbered.suffix {budget : Nat} {later earlier : List Decision}
    (numbered : Numbered budget (later ++ earlier)) : Numbered budget earlier := by
  induction later with
  | nil => exact numbered
  | cons decision rest ih => exact ih numbered.2

theorem streak_append {run earlier : List Decision}
    (requeued : ∀ decision ∈ run, decision.isRequeued = true)
    (ended : ∀ decision ∈ earlier.head?, decision.isRequeued = false) :
    streak (run ++ earlier) = run.length := by
  induction run with
  | nil =>
      cases earlier with
      | nil => rfl
      | cons decision rest =>
          have other := ended decision rfl
          simp [streak_cons, other]
  | cons decision rest ih =>
      obtain ⟨here, there⟩ := List.forall_mem_cons.mp requeued
      rw [List.cons_append, streak_cons, if_pos here, ih there, List.length_cons]

/-- The requeues after another decision, or after none, are numbered from one. -/
theorem Numbered.run_eq {budget : Nat} {run earlier : List Decision}
    (numbered : Numbered budget (run ++ earlier))
    (requeued : ∀ decision ∈ run, decision.isRequeued = true)
    (ended : ∀ decision ∈ earlier.head?, decision.isRequeued = false) :
    run.reverse = (List.range' 1 run.length).map Decision.requeued ∧ run.length ≤ budget := by
  induction run with
  | nil => exact ⟨rfl, Nat.zero_le budget⟩
  | cons decision rest ih =>
      obtain ⟨here, there⟩ := List.forall_mem_cons.mp requeued
      obtain ⟨next, before⟩ := numbered
      cases decision with
      | requeued attempt =>
          obtain ⟨counted, within⟩ := next attempt rfl
          rw [List.append_eq, streak_append there ended] at counted
          subst counted
          have range : List.range' 1 (rest.length + 1) =
              List.range' 1 rest.length ++ [rest.length + 1] := by
            rw [List.range'_concat, Nat.one_mul, Nat.add_comm]
          refine ⟨?_, within⟩
          rw [List.reverse_cons, (ih before there).1, List.length_cons, range, List.map_append]
          rfl
      | succeeded => contradiction
      | dropped => contradiction
      | abandoned attempts message => contradiction

end Decision

namespace Retry

/-- A result that was handled, and what was decided. -/
structure Verdict where
  key : Key
  result : Except ReconcileError Unit
  decision : Decision

/-- A queue, what was decided about its keys, the newest first, and the reports in the order in
which they were sent. -/
structure Record where
  queue : WorkQueue Key
  verdicts : List Verdict := []
  reports : List FailureReport := []

def history (verdicts : List Verdict) (key : Key) : List Decision :=
  (verdicts.filter (·.key = key)).map (·.decision)

def requeuedInARow (verdicts : List Verdict) (key : Key) : Nat :=
  Decision.streak (history verdicts key)

/-- A report says which key was given up, after how many attempts and for which failure. -/
def Reports (report : FailureReport) (verdict : Verdict) : Prop :=
  report.key = verdict.key ∧
    verdict.decision = .abandoned report.attempts report.error.message ∧
    ∃ cause, verdict.result = .error cause ∧
      report.error = .permanentFailure report.attempts cause ∧
      ∀ attempts inner, cause ≠ .permanentFailure attempts inner

/-- When a failure that may pass is not requeued any more. -/
def Answers (budget : Nat) (verdict : Verdict) (earlier : List Verdict) : Prop :=
  ∀ error, verdict.result = .error error → error.isRetryable = true →
    (verdict.decision.isAbandoned = true ↔ requeuedInARow earlier verdict.key = budget) ∧
    (verdict.decision.isAbandoned = false →
      verdict.decision = .requeued (requeuedInARow earlier verdict.key + 1)) ∧
    ∀ attempts message, verdict.decision = .abandoned attempts message →
      attempts = min (budget + 1) (UInt32.size - 1)

inductive Step (budget : Nat) (record : Record) : Record → Prop where
  | handle (key : Key) (result : Except ReconcileError Unit) {outcome : Outcome}
      (decided : Retry.handle budget record.queue key result = outcome) :
      Step budget record
        { queue := outcome.queue
          verdicts := ⟨key, result, outcome.decision⟩ :: record.verdicts
          reports := record.reports ++ outcome.report?.toList }
  /-- Time passes and keys come and go, while nobody else turns to the limiter. -/
  | meanwhile (queue : WorkQueue Key) (same : queue.limiter = record.queue.limiter) :
      Step budget record { record with queue }

/-- What can come about from a limiter that has counted nothing yet. -/
inductive Reachable (budget : Nat) : Record → Prop where
  | start (queue : WorkQueue Key) (counting : queue.limiter.HasBackoff)
      (fresh : queue.limiter.Counts fun _ => 0) : Reachable budget { queue }
  | step {record after : Record} (earlier : Reachable budget record)
      (stepped : Step budget record after) : Reachable budget after

/-- A failure that may pass is requeued within the budget and reported beyond it; whatever else
the result is, the failures of the key are forgotten. -/
theorem handle_cases (budget : Nat) (queue : WorkQueue Key) (key : Key)
    (result : Except ReconcileError Unit) :
    (∃ error, result = .error error ∧ error.isRetryable = true ∧ queue.requeues key < budget ∧
      handle budget queue key result =
        { decision := .requeued (queue.requeues key + 1), queue := queue.addRateLimited key }) ∨
    (∃ error, result = .error error ∧ error.isRetryable = true ∧ budget ≤ queue.requeues key ∧
      handle budget queue key result =
        { decision := .abandoned (attemptsAfter (queue.requeues key))
            (reportOn key (queue.requeues key) error).error.message
          queue := queue.forget key
          report? := some (reportOn key (queue.requeues key) error) }) ∨
    ((∀ error, result = .error error → error.isRetryable = false) ∧
      ∃ decision, (decision = .succeeded ∨ decision = .dropped) ∧
        handle budget queue key result = { decision, queue := queue.forget key }) := by
  cases result with
  | ok done => exact .inr (.inr ⟨by simp, .succeeded, .inl rfl, rfl⟩)
  | error error =>
      cases retryable : error.isRetryable with
      | false =>
          refine .inr (.inr ⟨?_, .dropped, .inr rfl, by simp [handle, retryable]⟩)
          rintro _ ⟨⟩
          exact retryable
      | true =>
          by_cases within : queue.requeues key < budget
          · exact .inl ⟨error, rfl, retryable, within, by simp [handle, retryable, within]⟩
          · refine .inr (.inl ⟨error, rfl, retryable, Nat.le_of_not_lt within, ?_⟩)
            simp [handle, retryable, within, reportOn]

theorem limiter_addAfter (queue : WorkQueue Key) (key : Key) (delay : Nat) :
    (queue.addAfter key delay).limiter = queue.limiter := by
  unfold WorkQueue.addAfter
  split
  · rfl
  · split <;> rfl

theorem limiter_addRateLimited (queue : WorkQueue Key) (key : Key) :
    (queue.addRateLimited key).limiter = (queue.limiter.backOff queue.now key).2 :=
  limiter_addAfter _ key _

theorem history_cons (verdict : Verdict) (earlier : List Verdict) (key : Key) :
    history (verdict :: earlier) key =
      if verdict.key = key then verdict.decision :: history earlier key
      else history earlier key := by
  unfold history
  by_cases same : verdict.key = key <;> simp [same]

theorem requeuedInARow_requeued {verdict : Verdict} (earlier : List Verdict)
    (requeued : verdict.decision.isRequeued = true)
    (room : requeuedInARow earlier verdict.key < Limiter.Tally.ceiling) :
    requeuedInARow (verdict :: earlier) =
      Limiter.bumped (requeuedInARow earlier) verdict.key := by
  funext key
  unfold requeuedInARow Limiter.bumped
  rw [history_cons]
  by_cases same : verdict.key = key
  · subst same
    rw [if_pos rfl, if_pos rfl, Decision.streak_cons, if_pos requeued]
    exact (Nat.min_eq_left (Nat.succ_le_of_lt room)).symm
  · rw [if_neg same, if_neg (Ne.symm same)]

theorem requeuedInARow_other {verdict : Verdict} (earlier : List Verdict)
    (other : verdict.decision.isRequeued = false) :
    requeuedInARow (verdict :: earlier) =
      Limiter.cleared (requeuedInARow earlier) verdict.key := by
  funext key
  unfold requeuedInARow Limiter.cleared
  rw [history_cons]
  by_cases same : verdict.key = key
  · subst same
    rw [if_pos rfl, if_pos rfl, Decision.streak_cons, other]
    rfl
  · rw [if_neg same, if_neg (Ne.symm same)]

namespace Record

/-- The limiter counts the requeues of each key since the last other decision about it. -/
structure Kept (budget : Nat) (record : Record) : Prop where
  counting : record.queue.limiter.HasBackoff
  counts : record.queue.limiter.Counts (requeuedInARow record.verdicts)
  within (key : Key) : requeuedInARow record.verdicts key ≤ budget
  numbered (key : Key) : Decision.Numbered budget (history record.verdicts key)
  answers (newer : List Verdict) (verdict : Verdict) (earlier : List Verdict)
    (split : record.verdicts = newer ++ verdict :: earlier) : Answers budget verdict earlier
  reported : List.Forall₂ Reports record.reports
    (record.verdicts.reverse.filter (·.decision.isAbandoned))

namespace Kept

variable {budget : Nat} {record after : Record}

theorem start {queue : WorkQueue Key} (counting : queue.limiter.HasBackoff)
    (fresh : queue.limiter.Counts fun _ => 0) : Kept budget { queue } where
  counting := counting
  counts := fresh
  within := fun key => Nat.zero_le budget
  numbered := fun key => trivial
  answers := by
    intro newer verdict earlier split
    simp at split
  reported := .nil

theorem requeues_eq (kept : record.Kept budget) (key : Key) :
    record.queue.requeues key = requeuedInARow record.verdicts key :=
  kept.counts.requeues_eq kept.counting key

/-- One more verdict: what has to be said of it, and of the key it is about. -/
theorem cons (kept : record.Kept budget) {verdict : Verdict} {queue : WorkQueue Key}
    {reports : List FailureReport} (counting : queue.limiter.HasBackoff)
    (counts : queue.limiter.Counts (requeuedInARow (verdict :: record.verdicts)))
    (numbered : ∀ attempt, verdict.decision = .requeued attempt →
      attempt = requeuedInARow record.verdicts verdict.key + 1 ∧ attempt ≤ budget)
    (answers : Answers budget verdict record.verdicts)
    (reported : List.Forall₂ Reports reports
      ((verdict :: record.verdicts).reverse.filter (·.decision.isAbandoned))) :
    Kept budget { queue, verdicts := verdict :: record.verdicts, reports } where
  counting := counting
  counts := counts
  within := by
    intro key
    have before := kept.within key
    unfold requeuedInARow at *
    rw [history_cons]
    split
    · next same =>
        subst same
        rw [Decision.streak_cons]
        cases decided : verdict.decision with
        | requeued attempt =>
            obtain ⟨counted, allowed⟩ := numbered attempt decided
            simp only [Decision.isRequeued, if_true]
            omega
        | succeeded => exact Nat.zero_le budget
        | dropped => exact Nat.zero_le budget
        | abandoned attempts message => exact Nat.zero_le budget
    · exact before
  numbered := by
    intro key
    rw [history_cons]
    split
    · next same =>
        subst same
        exact ⟨numbered, kept.numbered verdict.key⟩
    · exact kept.numbered key
  answers := by
    intro newer other earlier split
    cases newer with
    | nil =>
        obtain ⟨rfl, rfl⟩ := List.cons.inj split
        exact answers
    | cons newest rest => exact kept.answers rest other earlier (List.cons.inj split).2
  reported := reported

theorem requeue (kept : record.Kept budget) (bounded : budget ≤ Limiter.Tally.ceiling) {key : Key}
    {error : ReconcileError} (room : requeuedInARow record.verdicts key < budget) :
    Kept budget
      { queue := record.queue.addRateLimited key
        verdicts := ⟨key, .error error, .requeued (requeuedInARow record.verdicts key + 1)⟩ ::
          record.verdicts
        reports := record.reports } := by
  apply kept.cons
  · rw [limiter_addRateLimited]
    exact Limiter.hasBackoff_backOff.mpr kept.counting
  · rw [limiter_addRateLimited, requeuedInARow_requeued _ rfl (Nat.lt_of_lt_of_le room bounded)]
    exact kept.counts.backOff
  · rintro attempt ⟨⟩
    exact ⟨rfl, room⟩
  · rintro _ ⟨⟩ _
    refine ⟨?_, fun _ => rfl, by simp⟩
    simp only [Decision.isAbandoned, Bool.false_eq_true, false_iff]
    exact Nat.ne_of_lt room
  · simpa [Decision.isAbandoned] using kept.reported

theorem forget (kept : record.Kept budget) {key : Key} {result : Except ReconcileError Unit}
    {decision : Decision} {reports : List FailureReport} (other : decision.isRequeued = false)
    (answers : Answers budget ⟨key, result, decision⟩ record.verdicts)
    (reported : List.Forall₂ Reports reports
      ((⟨key, result, decision⟩ :: record.verdicts).reverse.filter (·.decision.isAbandoned))) :
    Kept budget
      { queue := record.queue.forget key
        verdicts := ⟨key, result, decision⟩ :: record.verdicts
        reports } := by
  refine kept.cons (Limiter.hasBackoff_forget.mpr kept.counting) ?_ ?_ answers reported
  · rw [requeuedInARow_other _ other]
    exact kept.counts.forget
  · rintro attempt rfl
    contradiction

theorem handle (kept : record.Kept budget) (bounded : budget ≤ Limiter.Tally.ceiling) (key : Key)
    (result : Except ReconcileError Unit) :
    Kept budget
      { queue := (Retry.handle budget record.queue key result).queue
        verdicts := ⟨key, result, (Retry.handle budget record.queue key result).decision⟩ ::
          record.verdicts
        reports := record.reports ++
          (Retry.handle budget record.queue key result).report?.toList } := by
  have counted := kept.requeues_eq key
  have within := kept.within key
  rcases handle_cases budget record.queue key result with
    ⟨error, rfl, retryable, room, decided⟩ | ⟨error, rfl, retryable, spent, decided⟩ |
      ⟨hopeless, decision, ended, decided⟩
  · rw [decided, Option.toList_none, List.append_nil]
    rw [counted] at room ⊢
    exact kept.requeue bounded room
  · have used : requeuedInARow record.verdicts key = budget := by omega
    rw [decided, counted, used]
    apply kept.forget
    · rfl
    · rintro _ ⟨⟩ _
      refine ⟨⟨fun _ => used, fun _ => rfl⟩, by simp [Decision.isAbandoned], ?_⟩
      rintro attempts message ⟨⟩
      rfl
    · rw [List.reverse_cons, List.filter_append]
      refine List.rel_append kept.reported (.cons ?_ .nil)
      refine ⟨rfl, rfl, error, rfl, rfl, ?_⟩
      rintro attempts inner rfl
      contradiction
  · have other : decision.isRequeued = false ∧ decision.isAbandoned = false := by
      rcases ended with rfl | rfl <;> exact ⟨rfl, rfl⟩
    rw [decided]
    apply kept.forget
    · exact other.1
    · intro error failed retryable
      rw [hopeless error failed] at retryable
      contradiction
    · simpa [other.2] using kept.reported

theorem step (kept : record.Kept budget) (bounded : budget ≤ Limiter.Tally.ceiling)
    (stepped : Step budget record after) : after.Kept budget := by
  cases stepped with
  | handle key result decided =>
      subst decided
      exact kept.handle bounded key result
  | meanwhile queue same =>
      exact { kept with
        counting := by rw [same]; exact kept.counting
        counts := by rw [same]; exact kept.counts }

theorem of_reachable (bounded : budget ≤ Limiter.Tally.ceiling)
    (reachable : Reachable budget record) : record.Kept budget := by
  induction reachable with
  | start queue counting fresh => exact start counting fresh
  | step earlier stepped ih => exact ih.step bounded stepped

end Kept

end Record

theorem decision_congr {budget : Nat} {queue other : WorkQueue Key} {key : Key}
    (same : queue.requeues key = other.requeues key) (result : Except ReconcileError Unit) :
    (handle budget queue key result).decision = (handle budget other key result).decision := by
  cases result with
  | ok done => rfl
  | error error =>
      simp only [handle, same]
      split
      · rfl
      · split <;> rfl

/-- Whatever is handled for which keys, and in whatever order: the requeues of a key after another
decision about it are numbered from one and no more than the budget. A failure that may pass ends
them exactly when there are as many as that, and then the key is given up with one report of this
failure. All other decisions leave no failures of the key, and none of them concerns another key. -/
theorem numbered_of_reachable {budget : UInt32} {record : Record}
    (reachable : Reachable budget.toNat record) :
    (∀ key newer run earlier, history record.verdicts key = newer ++ (run ++ earlier) →
      (∀ decision ∈ run, decision.isRequeued = true) →
      (∀ decision ∈ earlier.head?, decision.isRequeued = false) →
      run.reverse = (List.range' 1 run.length).map Decision.requeued ∧
        run.length ≤ budget.toNat) ∧
    (∀ newer verdict earlier, record.verdicts = newer ++ verdict :: earlier →
      Answers budget.toNat verdict earlier) ∧
    List.Forall₂ Reports record.reports
      (record.verdicts.reverse.filter (·.decision.isAbandoned)) ∧
    ∀ key result outcome, handle budget.toNat record.queue key result = outcome →
      (outcome.decision.isRequeued = false → outcome.queue.requeues key = 0) ∧
      ∀ other, other ≠ key → outcome.queue.requeues other = record.queue.requeues other ∧
        ∀ next, (handle budget.toNat outcome.queue other next).decision =
          (handle budget.toNat record.queue other next).decision := by
  have bounded : budget.toNat ≤ Limiter.Tally.ceiling := Nat.le_pred_of_lt budget.toNat_lt
  have kept := Record.Kept.of_reachable bounded reachable
  refine ⟨?_, kept.answers, kept.reported, ?_⟩
  · intro key newer run earlier split requeued ended
    have numbered := kept.numbered key
    rw [split] at numbered
    exact numbered.suffix.run_eq requeued ended
  · rintro key result outcome rfl
    have later := kept.handle bounded key result
    refine ⟨fun ended => ?_, fun other differs => ?_⟩
    · have counted := later.requeues_eq key
      rw [requeuedInARow_other _ ended] at counted
      exact counted.trans (if_pos rfl)
    · have same : (handle budget.toNat record.queue key result).queue.requeues other =
          record.queue.requeues other := by
        rw [later.requeues_eq other, kept.requeues_eq other]
        unfold requeuedInARow
        rw [history_cons, if_neg (Ne.symm differs)]
      exact ⟨same, decision_congr same⟩

/-- A key fails twice, under a tree with two backoffs and a budget of one retry. -/
theorem numbered_of_spent :
    let key : Key := ⟨some "default", "web"⟩
    let timeout : ReconcileError := .store (.transient "timeout")
    ∃ record : Record, Reachable (1 : UInt32).toNat record ∧
      history record.verdicts key =
        [.abandoned 2 (reportOn key 1 timeout).error.message, .requeued 1] ∧
      record.reports.length = 1 ∧
      (handle 1 record.queue key (.ok ())).queue.requeues key = 0 := by
  intro key timeout
  let tree : Limiter Key := .longest [.longest [], .exponential { base := 5, limit := 10 },
    .longest [.exponential { base := 0, limit := 0 }]]
  have first : Reachable (1 : UInt32).toNat _ :=
    .step (.start { limiter := tree } (.inr (.inl trivial))
      ⟨trivial, fun _ => rfl, ⟨fun _ => rfl, trivial⟩, trivial⟩) (.handle key (.error timeout) rfl)
  have second : Reachable (1 : UInt32).toNat _ := .step first (.handle key (.error timeout) rfl)
  obtain ⟨_, _, reported, forgets⟩ := numbered_of_reachable second
  exact ⟨_, second, rfl, reported.length_eq, (forgets key (.ok ()) _ rfl).1 rfl⟩

end Retry

end ReconcileLoop
