import Mathlib.Data.List.Perm.Basic
import ReconcileLoop.Proofs.Queue.Exclusion

namespace ReconcileLoop.Queue

/-! # Nobody waits for a call that has been made

A task that waits for an item has a ticket of its own, which is in line until it is called
(`Signal.Ticketed`). What others do with their tickets takes nothing from that. So once everybody in
line was called and the queue is down, nobody waits any more: every task that still gets an item is
told at its next steps that there is none (`Dismissed`).
-/

namespace Signal

/-- Whether a ticket is in line, or was called. -/
def Knows (signal : Signal) (ticket : Ticket) : Prop :=
  ticket ∈ signal.waiting ∨ signal.isCalled ticket = true

variable {signal : Signal} {ticket other : Ticket}

theorem isCalled_iff :
    signal.isCalled ticket = true ↔ ticket ∈ signal.called ∨ ticket ∈ signal.freed := by
  simp [isCalled]

theorem isCalled_callOne (called : signal.isCalled ticket = true) :
    signal.callOne.isCalled ticket = true := by
  rw [isCalled_iff] at called ⊢
  unfold callOne
  split
  · exact called
  · exact called.imp (List.mem_append_left _) id

theorem knows_callOne (known : signal.Knows ticket) : signal.callOne.Knows ticket := by
  rcases known with waits | called
  · cases line : signal.waiting with
    | nil => simp [line] at waits
    | cons first rest =>
        rw [line] at waits
        rcases List.mem_cons.mp waits with rfl | later
        · exact .inr (isCalled_iff.mpr (.inl (by simp [callOne, line])))
        · exact .inl (by simpa [callOne, line] using later)
  · exact .inr (isCalled_callOne called)

theorem isCalled_callAll (known : signal.Knows ticket) : signal.callAll.isCalled ticket = true := by
  rw [isCalled_iff]
  rcases known with waits | called
  · exact .inr (List.mem_append_right _ waits)
  · exact (isCalled_iff.mp called).imp id (List.mem_append_left _)

theorem knows_callAll (known : signal.Knows ticket) : signal.callAll.Knows ticket :=
  .inr (isCalled_callAll known)

theorem isCalled_join (called : signal.isCalled ticket = true) :
    signal.join.2.isCalled ticket = true := by
  unfold join
  split <;> exact called

/-- What its holder does with a ticket leaves what is known of the others as it was. -/
theorem isCalled_answer (differ : other ≠ ticket) (called : signal.isCalled other = true) :
    (signal.answer ticket).isCalled other = true := by
  rw [isCalled_iff] at called ⊢
  exact called.imp (List.mem_erase_of_ne differ).mpr (List.mem_erase_of_ne differ).mpr

theorem isCalled_leave (differ : other ≠ ticket) (called : signal.isCalled other = true) :
    (signal.leave ticket).isCalled other = true := by
  have kept := isCalled_iff.mp called
  unfold leave
  split
  · exact isCalled_callOne (isCalled_iff.mpr (kept.imp (List.mem_erase_of_ne differ).mpr id))
  · exact isCalled_iff.mpr (kept.imp id (List.mem_erase_of_ne differ).mpr)

theorem knows_answer (differ : other ≠ ticket) (known : signal.Knows other) :
    (signal.answer ticket).Knows other :=
  known.imp id (isCalled_answer differ)

theorem knows_leave (differ : other ≠ ticket) (known : signal.Knows other) :
    (signal.leave ticket).Knows other := by
  rcases known with waits | called
  · unfold leave
    split
    · exact knows_callOne (.inl waits)
    · exact .inl ((List.mem_erase_of_ne differ).mpr waits)
  · exact .inr (isCalled_leave differ called)

@[simp] theorem next_callOne (signal : Signal) : signal.callOne.next = signal.next := by
  unfold callOne
  split <;> rfl

@[simp] theorem next_leave (signal : Signal) (ticket : Ticket) :
    (signal.leave ticket).next = signal.next := by
  unfold leave
  split <;> simp

/-- The tickets that are out: each was issued once, and is in line or was called. -/
structure Ticketed (signal : Signal) (tickets : List Ticket) : Prop where
  nodup : tickets.Nodup
  issued : ∀ ticket ∈ tickets, ticket < signal.next
  known : ∀ ticket ∈ tickets, signal.Knows ticket

namespace Ticketed

variable {tickets others : List Ticket}

theorem sublist (ticketed : signal.Ticketed tickets) (fewer : others.Sublist tickets) :
    signal.Ticketed others where
  nodup := ticketed.nodup.sublist fewer
  issued := fun ticket out => ticketed.issued ticket (fewer.subset out)
  known := fun ticket out => ticketed.known ticket (fewer.subset out)

theorem perm (ticketed : signal.Ticketed tickets) (same : tickets.Perm others) :
    signal.Ticketed others where
  nodup := same.nodup_iff.mp ticketed.nodup
  issued := fun ticket out => ticketed.issued ticket (same.mem_iff.mpr out)
  known := fun ticket out => ticketed.known ticket (same.mem_iff.mpr out)

theorem callOne (ticketed : signal.Ticketed tickets) : signal.callOne.Ticketed tickets where
  nodup := ticketed.nodup
  issued := fun ticket out => by simpa using ticketed.issued ticket out
  known := fun ticket out => knows_callOne (ticketed.known ticket out)

theorem callAll (ticketed : signal.Ticketed tickets) : signal.callAll.Ticketed tickets where
  nodup := ticketed.nodup
  issued := ticketed.issued
  known := fun ticket out => knows_callAll (ticketed.known ticket out)

theorem join (ticketed : signal.Ticketed tickets) :
    signal.join.2.Ticketed (signal.join.1.toList ++ tickets) := by
  unfold Signal.join
  split
  · exact ⟨ticketed.nodup, ticketed.issued, ticketed.known⟩
  · refine ⟨?_, ?_, ?_⟩
    · refine List.nodup_cons.mpr ⟨fun out => ?_, ticketed.nodup⟩
      exact absurd (ticketed.issued _ out) (Nat.lt_irrefl _)
    · intro ticket out
      rcases List.mem_cons.mp out with rfl | out
      · exact Nat.lt_succ_self _
      · exact Nat.lt_succ_of_lt (ticketed.issued ticket out)
    · intro ticket out
      rcases List.mem_cons.mp out with rfl | out
      · exact .inl (List.mem_append_right _ (List.mem_singleton_self _))
      · exact (ticketed.known ticket out).imp (List.mem_append_left _) id

theorem apart (ticketed : signal.Ticketed (ticket :: tickets)) :
    ∀ other ∈ tickets, other ≠ ticket := by
  rintro other out rfl
  exact (List.nodup_cons.mp ticketed.nodup).1 out

theorem answer (ticketed : signal.Ticketed (ticket :: tickets)) :
    (signal.answer ticket).Ticketed tickets where
  nodup := (List.nodup_cons.mp ticketed.nodup).2
  issued := fun other out => ticketed.issued other (List.mem_cons_of_mem _ out)
  known := fun other out =>
    knows_answer (ticketed.apart other out) (ticketed.known other (List.mem_cons_of_mem _ out))

theorem leave (ticketed : signal.Ticketed (ticket :: tickets)) :
    (signal.leave ticket).Ticketed tickets where
  nodup := (List.nodup_cons.mp ticketed.nodup).2
  issued := fun other out => by
    simpa using ticketed.issued other (List.mem_cons_of_mem _ out)
  known := fun other out =>
    knows_leave (ticketed.apart other out) (ticketed.known other (List.mem_cons_of_mem _ out))

end Ticketed

end Signal

variable {κ : Type} [DecidableEq κ] {shared after : Shared κ} {getter next : Getter κ}
  {rest : List (Getter κ)} {ticket : Ticket}

omit [DecidableEq κ] in
/-- The tickets that are out with tasks. -/
def tickets (getters : List (Getter κ)) : List Ticket := getters.filterMap Getter.ticket?

omit [DecidableEq κ] in
theorem tickets_cons (getter : Getter κ) (rest : List (Getter κ)) :
    tickets (getter :: rest) = getter.ticket?.toList ++ tickets rest := by
  cases out : getter.ticket? <;> simp [tickets, out]

omit [DecidableEq κ] in
theorem tickets_come (getters : List (Getter κ)) : tickets (getters ++ [.fresh]) = tickets getters :=
  List.filterMap_append.trans (List.append_nil _)

omit [DecidableEq κ] in
theorem mem_tickets (waits : .waiting (some ticket) ∈ rest) : ticket ∈ tickets rest :=
  List.mem_filterMap.mpr ⟨_, waits, rfl⟩

omit [DecidableEq κ] in
theorem Shared.ticketed_leave {ticket? : Option Ticket}
    (ticketed : shared.signal.Ticketed (ticket?.toList ++ tickets rest)) :
    (shared.leave ticket?).signal.Ticketed (tickets rest) := by
  cases ticket? with
  | none => exact ticketed
  | some ticket => exact ticketed.leave

omit [DecidableEq κ] in
theorem Shared.isCalled_leave {ticket? : Option Ticket}
    (ticketed : shared.signal.Ticketed (ticket?.toList ++ tickets rest))
    (out : ticket ∈ tickets rest) (called : shared.signal.isCalled ticket = true) :
    (shared.leave ticket?).signal.isCalled ticket = true := by
  cases ticket? with
  | none => exact called
  | some own => exact Signal.isCalled_leave (ticketed.apart ticket out) called

namespace Getter

/-- A task takes a ticket when it joins the line, and gives it up when it goes on or has finished. -/
theorem ticketed_step? (moved : getter.step? shared = some (after, next))
    (ticketed : shared.signal.Ticketed (tickets (getter :: rest))) :
    after.signal.Ticketed (tickets (next :: rest)) := by
  rw [tickets_cons] at ticketed ⊢
  cases getter with
  | fresh =>
      cases moved
      exact ticketed.join
  | joined ticket? =>
      simp only [step?] at moved
      split at moved
      · cases moved
        exact Shared.ticketed_leave ticketed
      · split at moved
        · next item queue taken =>
            cases moved
            have same : ({ shared with queue } : Shared κ).signal = shared.signal := rfl
            exact Shared.ticketed_leave (same ▸ ticketed)
        · cases moved
          exact ticketed
  | waiting ticket? =>
      cases ticket? with
      | none =>
          cases moved
          exact ticketed
      | some ticket =>
          simp only [step?] at moved
          split at moved
          · cases moved
            exact ticketed.answer
          · contradiction
  | finished item? => contradiction

/-- A step of one task takes back nobody else's call. -/
theorem isCalled_step? (moved : getter.step? shared = some (after, next))
    (ticketed : shared.signal.Ticketed (tickets (getter :: rest))) (out : ticket ∈ tickets rest)
    (called : shared.signal.isCalled ticket = true) : after.signal.isCalled ticket = true := by
  rw [tickets_cons] at ticketed
  cases getter with
  | fresh =>
      cases moved
      exact Signal.isCalled_join called
  | joined ticket? =>
      simp only [step?] at moved
      split at moved
      · cases moved
        exact Shared.isCalled_leave ticketed out called
      · split at moved
        · next item queue taken =>
            cases moved
            have same : ({ shared with queue } : Shared κ).signal = shared.signal := rfl
            exact Shared.isCalled_leave (same ▸ ticketed) out (same ▸ called)
        · cases moved
          exact called
  | waiting ticket? =>
      cases ticket? with
      | none =>
          cases moved
          exact called
      | some own =>
          simp only [step?] at moved
          split at moved
          · cases moved
            exact Signal.isCalled_answer (ticketed.apart ticket out) called
          · contradiction
  | finished item? => contradiction

/-- In a queue that is down nobody starts to wait. -/
theorem step?_of_down (down : shared.queue.down = true)
    (moved : getter.step? shared = some (after, next)) :
    after.queue = shared.queue ∧ getter.taken? = none ∧ next.taken? = none ∧
      ∀ ticket?, next ≠ .waiting ticket? := by
  cases getter with
  | fresh =>
      cases moved
      exact ⟨rfl, rfl, rfl, by simp⟩
  | joined ticket? =>
      simp only [step?, down, if_true] at moved
      cases moved
      exact ⟨by simp, rfl, rfl, by simp⟩
  | waiting ticket? =>
      cases ticket? with
      | none =>
          cases moved
          exact ⟨rfl, rfl, rfl, by simp⟩
      | some ticket =>
          simp only [step?] at moved
          split at moved
          · cases moved
            exact ⟨rfl, rfl, rfl, by simp⟩
          · contradiction
  | finished item? => contradiction

theorem run_finished (item? : Option κ) (shared : Shared κ) (fuel : Nat) :
    (finished item?).run shared fuel = (shared, .finished item?) := by
  cases fuel <;> rfl

theorem run_joined (down : shared.queue.down = true) (ticket? : Option Ticket) (fuel : Nat) :
    ((joined ticket?).run shared (fuel + 1)).2 = .finished none := by
  simp only [run, step?, down, if_true, run_finished]

theorem run_fresh (down : shared.queue.down = true) (fuel : Nat) :
    (fresh.run shared (fuel + 2)).2 = .finished none := by
  have still : ({ shared with signal := shared.signal.join.2 } : Shared κ).queue.down = true := down
  exact run_joined still _ fuel

end Getter

/-- The queue is down, and everybody who waits was called. -/
structure Dismissed (shared : Shared κ) (getters : List (Getter κ)) : Prop where
  down : shared.queue.down = true
  ticketed : shared.signal.Ticketed (tickets getters)
  called (ticket : Ticket) (waits : .waiting (some ticket) ∈ getters) :
    shared.signal.isCalled ticket = true

namespace Dismissed

variable {getters others : List (Getter κ)}

omit [DecidableEq κ] in
theorem perm (dismissed : Dismissed shared getters) (same : getters.Perm others) :
    Dismissed shared others where
  down := dismissed.down
  ticketed := dismissed.ticketed.perm (same.filterMap _)
  called := fun ticket waits => dismissed.called ticket (same.mem_iff.mpr waits)

omit [DecidableEq κ] in
theorem tail (dismissed : Dismissed shared (getter :: others)) : Dismissed shared others where
  down := dismissed.down
  ticketed := dismissed.ticketed.sublist ((List.sublist_cons_self getter others).filterMap _)
  called := fun ticket waits => dismissed.called ticket (List.mem_cons_of_mem _ waits)

theorem step (dismissed : Dismissed shared (getter :: rest))
    (moved : getter.step? shared = some (after, next)) : Dismissed after (next :: rest) := by
  obtain ⟨same, _, _, goesOn⟩ := Getter.step?_of_down dismissed.down moved
  refine ⟨?_, Getter.ticketed_step? moved dismissed.ticketed, fun ticket waits => ?_⟩
  · rw [same]
    exact dismissed.down
  · rcases List.mem_cons.mp waits with own | waits
    · exact absurd own.symm (goesOn _)
    · exact Getter.isCalled_step? moved dismissed.ticketed (mem_tickets waits)
        (dismissed.called ticket (List.mem_cons_of_mem _ waits))

theorem run (dismissed : Dismissed shared (getter :: rest)) (fuel : Nat) :
    Dismissed (getter.run shared fuel).1 ((getter.run shared fuel).2 :: rest) := by
  induction fuel generalizing shared getter with
  | zero => exact dismissed
  | succ fuel ih =>
      unfold Getter.run
      split
      · next moved => exact ih (dismissed.step moved)
      · exact dismissed

/-- A task that still gets an item is told at its next steps that there is none. -/
theorem finishes (dismissed : Dismissed shared (getter :: rest)) :
    (getter.run shared Getter.stepsToRest).2 = .finished getter.taken? := by
  have down := dismissed.down
  cases getter with
  | fresh => exact Getter.run_fresh down _
  | joined ticket? => exact Getter.run_joined down ticket? _
  | waiting ticket? =>
      cases ticket? with
      | none => exact Getter.run_fresh down _
      | some ticket =>
          have called := dismissed.called ticket (List.mem_cons_self ..)
          have still : ({ shared with signal := shared.signal.answer ticket } : Shared κ).queue.down =
            true := down
          simp only [Getter.run, Getter.stepsToRest, Getter.step?, called, if_true]
          exact Getter.run_fresh still 3
  | finished item? => rw [Getter.run_finished]; rfl

theorem settle (dismissed : Dismissed shared getters) :
    (shared.settle getters).2 = getters.map fun getter => .finished getter.taken? := by
  induction getters generalizing shared with
  | nil => rfl
  | cons getter rest ih =>
      have later := (dismissed.run Getter.stepsToRest).tail
      simp only [Shared.settle, List.map_cons, dismissed.finishes, ih later]

end Dismissed

end ReconcileLoop.Queue
