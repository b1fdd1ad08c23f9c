import ReconcileLoop.Proofs.Closing

namespace ReconcileLoop.Queue

/-! # Somebody is on the way to every item

The tickets that are out are those in line and those that were called, and a permit is only left
while nobody is in line (`Signal.Assigned`). So a task that waits uncalled can count on the others:
for every item that is ready there is an operation that has not called yet, a call that nobody has
answered yet, or a task that has not looked yet (`Attended`). The parts of the operations keep that
in any order, and so do the steps of the tasks.
-/

theorem ready_of_take?_eq_none {κ : Type} [DecidableEq κ] {queue : Queue κ}
    (up : queue.down = false) (nothing : queue.take? = none) : queue.ready = [] := by
  unfold take? at nothing
  split at nothing
  · next down => simp [up] at down
  · split at nothing
    · next ready => exact ready
    · contradiction

namespace Signal

/-- The tickets that are out are those in line and those that were called, each of them once. -/
structure Assigned (signal : Signal) (out : List Ticket) : Prop where
  places : (signal.waiting ++ (signal.called ++ signal.freed)).Perm out
  nodup : out.Nodup
  issued : ∀ ticket ∈ out, ticket < signal.next
  /-- A permit is left for those who come while nobody is in line. -/
  idle (permit : signal.permit = true) : signal.waiting = []

theorem erase_append_of_nodup {left right : List Ticket} (nodup : (left ++ right).Nodup)
    (ticket : Ticket) :
    (left ++ right).erase ticket = left.erase ticket ++ right.erase ticket := by
  by_cases first : ticket ∈ left
  · rw [List.erase_append_left _ first,
      List.erase_of_not_mem (a := ticket) (l := right) (List.disjoint_of_nodup_append nodup first)]
  · rw [List.erase_append_right _ first, List.erase_of_not_mem first]

namespace Assigned

variable {signal : Signal} {ticket : Ticket} {out others : List Ticket}

theorem perm (assigned : signal.Assigned out) (same : out.Perm others) :
    signal.Assigned others where
  places := assigned.places.trans same
  nodup := same.nodup_iff.mp assigned.nodup
  issued := fun ticket there => assigned.issued ticket (same.mem_iff.mpr there)
  idle := assigned.idle

theorem mem_out (assigned : signal.Assigned out) :
    ticket ∈ out ↔ ticket ∈ signal.waiting ∨ signal.isCalled ticket = true := by
  rw [isCalled_iff, ← assigned.places.mem_iff, List.mem_append, List.mem_append]

theorem callOne (assigned : signal.Assigned out) : signal.callOne.Assigned out := by
  unfold Signal.callOne
  split
  · next line => exact ⟨assigned.places, assigned.nodup, assigned.issued, fun _ => line⟩
  · next first rest line =>
      have places := assigned.places
      rw [line] at places
      refine ⟨.trans ?_ places, assigned.nodup, assigned.issued, fun permit => ?_⟩
      · simp only [List.append_assoc, List.cons_append, List.nil_append]
        rw [← List.append_assoc]
        exact List.perm_middle.trans (by simp)
      · exact absurd (assigned.idle permit) (by simp [line])

theorem callAll (assigned : signal.Assigned out) : signal.callAll.Assigned out where
  places := by
    refine .trans ?_ assigned.places
    simp only [Signal.callAll, List.nil_append]
    rw [← List.append_assoc]
    exact List.perm_append_comm
  nodup := assigned.nodup
  issued := assigned.issued
  idle := fun _ => rfl

theorem join (assigned : signal.Assigned out) :
    signal.join.2.Assigned (signal.join.1.toList ++ out) := by
  unfold Signal.join
  split
  · exact ⟨assigned.places, assigned.nodup, assigned.issued, fun permit => by contradiction⟩
  · next none =>
      have unused : signal.next ∉ out := fun there =>
        Nat.lt_irrefl _ (assigned.issued _ there)
      refine ⟨?_, List.nodup_cons.mpr ⟨unused, assigned.nodup⟩, ?_, fun permit => ?_⟩
      · simp only [List.append_assoc]
        exact List.perm_middle.trans (assigned.places.cons _)
      · intro ticket there
        rcases List.mem_cons.mp there with rfl | there
        · exact Nat.lt_succ_self _
        · exact Nat.lt_succ_of_lt (assigned.issued ticket there)
      · exact absurd permit none

/-- A ticket that is no longer out leaves the place where it was. -/
theorem erase (assigned : signal.Assigned (ticket :: out)) :
    Assigned { signal with
      waiting := signal.waiting.erase ticket
      called := signal.called.erase ticket
      freed := signal.freed.erase ticket } out where
  places := by
    have nodup := assigned.places.nodup_iff.mpr assigned.nodup
    have rest := assigned.places.erase ticket
    rw [erase_append_of_nodup nodup, erase_append_of_nodup (List.Nodup.of_append_right nodup),
      List.erase_cons_head] at rest
    exact rest
  nodup := (List.nodup_cons.mp assigned.nodup).2
  issued := fun other there => assigned.issued other (List.mem_cons_of_mem _ there)
  idle permit := by
    change signal.waiting.erase ticket = []
    rw [assigned.idle permit]
    rfl

/-- A ticket that was called is not in line. -/
theorem not_mem_waiting (assigned : signal.Assigned out) (called : signal.isCalled ticket = true) :
    ticket ∉ signal.waiting := fun waits =>
  List.disjoint_of_nodup_append (assigned.places.nodup_iff.mpr assigned.nodup) waits
    (List.mem_append.mpr (isCalled_iff.mp called))

theorem answer (assigned : signal.Assigned (ticket :: out))
    (called : signal.isCalled ticket = true) : (signal.answer ticket).Assigned out := by
  have erased := assigned.erase
  rw [List.erase_of_not_mem (assigned.not_mem_waiting called)] at erased
  exact erased

theorem leave (assigned : signal.Assigned (ticket :: out)) :
    (signal.leave ticket).Assigned out := by
  have erased := assigned.erase
  unfold Signal.leave
  split
  · next there =>
      have called : signal.isCalled ticket = true := isCalled_iff.mpr (.inl there)
      have single := List.Nodup.of_append_right (assigned.places.nodup_iff.mpr assigned.nodup)
      rw [List.erase_of_not_mem (assigned.not_mem_waiting called),
        List.erase_of_not_mem (a := ticket) (l := signal.freed)
          (List.disjoint_of_nodup_append single there)] at erased
      exact erased.callOne
  · next absent =>
      rw [List.erase_of_not_mem absent] at erased
      exact erased

end Assigned

variable {signal : Signal} {ticket : Ticket} {out : List Ticket}

@[simp] theorem called_join (signal : Signal) : signal.join.2.called = signal.called := by
  unfold join
  split <;> rfl

theorem mem_waiting_of_join (issued : ticket < signal.next)
    (waits : ticket ∈ signal.join.2.waiting) : ticket ∈ signal.waiting := by
  unfold join at waits
  split at waits
  · exact waits
  · rcases List.mem_append.mp waits with waits | own
    · exact waits
    · exact absurd (List.mem_singleton.mp own) (Nat.ne_of_lt issued)

theorem waiting_callOne (signal : Signal) : signal.callOne.waiting = signal.waiting.tail := by
  unfold callOne
  split
  · next line => simp [line]
  · next line => simp [line]

theorem length_called_callOne (waits : ticket ∈ signal.callOne.waiting) :
    signal.callOne.called.length = signal.called.length + 1 := by
  rw [waiting_callOne] at waits
  unfold callOne
  split
  · next line => simp [line] at waits
  · simp

theorem mem_waiting_of_leave {other : Ticket} (waits : other ∈ (signal.leave ticket).waiting) :
    other ∈ signal.waiting := by
  unfold leave at waits
  split at waits
  · rw [waiting_callOne] at waits
    exact List.mem_of_mem_tail waits
  · exact List.mem_of_mem_erase waits

/-- If a call was meant for a ticket that is given back, the next in line is called. -/
theorem length_called_leave {other : Ticket} (waits : other ∈ (signal.leave ticket).waiting) :
    (signal.leave ticket).called.length = signal.called.length := by
  unfold leave at waits ⊢
  split
  · next called =>
      rw [if_pos called] at waits
      rw [length_called_callOne waits, List.length_erase_of_mem called]
      have := List.length_pos_of_mem called
      omega
  · rfl

theorem length_called_answer (signal : Signal) (ticket : Ticket) :
    signal.called.length ≤ (signal.answer ticket).called.length + 1 := by
  simp only [answer, List.length_erase]
  split <;> omega

end Signal

variable {κ : Type} [DecidableEq κ] {shared after : Shared κ} {getter next : Getter κ}
  {getters rest others : List (Getter κ)} {ticket : Ticket} {parting : List Ticket} {owed : Nat}
  {closing : Bool}

namespace Getter

/-- Whether a task is about to look into the queue. -/
def looks : Getter κ → Bool
  | fresh => true
  | joined _ => true
  | waiting ticket? => ticket?.isNone
  | finished _ => false

/-- The steps of a task that goes on getting an item. -/
inductive GoesOn (shared : Shared κ) : Getter κ → Shared κ → Getter κ → Prop where
  | joins : GoesOn shared fresh { shared with signal := shared.signal.join.2 }
      (joined shared.signal.join.1)
  | waits {ticket? : Option Ticket} (up : shared.queue.down = false)
      (empty : shared.queue.ready = []) : GoesOn shared (joined ticket?) shared (waiting ticket?)
  | permitted : GoesOn shared (waiting none) shared fresh
  | answers {ticket : Ticket} (called : shared.signal.isCalled ticket = true) :
      GoesOn shared (waiting (some ticket)) { shared with signal := shared.signal.answer ticket }
        fresh

omit [DecidableEq κ] in
theorem GoesOn.queue (goesOn : GoesOn shared getter after next) : after.queue = shared.queue := by
  cases goesOn <;> rfl

omit [DecidableEq κ] in
theorem GoesOn.unfinished (goesOn : GoesOn shared getter after next) :
    (∀ item?, getter ≠ .finished item?) ∧ ∀ item?, next ≠ .finished item? := by
  cases goesOn <;> exact ⟨nofun, nofun⟩

/-- What a task finishes with that looks into the queue, and what it leaves there. -/
inductive Finds (queue : Queue κ) : Option κ → Queue κ → Prop where
  | nothing (down : queue.down = true) : Finds queue none queue
  | item {item : κ} {items : Queue κ} (taken : queue.take? = some (item, items)) :
      Finds queue (some item) items

theorem Finds.down {queue items : Queue κ} {item? : Option κ} (finds : Finds queue item? items) :
    items.down = queue.down := by
  cases finds with
  | nothing down => rfl
  | item taken => exact (Queue.down_of_take? taken).trans (Queue.take?_eq_some taken).1.symm

/-- A task goes on, or it finishes with what it finds in the queue and gives back its ticket. -/
theorem step?_cases (moved : getter.step? shared = some (after, next)) :
    GoesOn shared getter after next ∨
      ∃ ticket? item? items, getter = .joined ticket? ∧ next = .finished item? ∧
        Finds shared.queue item? items ∧
        after = ({ shared with queue := items } : Shared κ).leave ticket? := by
  cases getter with
  | fresh =>
      cases moved
      exact .inl .joins
  | joined ticket? =>
      simp only [step?] at moved
      split at moved
      · next down =>
          cases moved
          exact .inr ⟨ticket?, none, shared.queue, rfl, rfl, .nothing down, rfl⟩
      · next up =>
          split at moved
          · next item queue taken =>
              cases moved
              exact .inr ⟨ticket?, some item, queue, rfl, rfl, .item taken, rfl⟩
          · next nothing =>
              cases moved
              have up : shared.queue.down = false := by simpa using up
              exact .inl (.waits up (ready_of_take?_eq_none up nothing))
  | waiting ticket? =>
      cases ticket? with
      | none =>
          cases moved
          exact .inl .permitted
      | some ticket =>
          simp only [step?] at moved
          split at moved
          · next called =>
              cases moved
              exact .inl (.answers called)
          · contradiction
  | finished item? => contradiction

theorem goesOn_of_step? (moved : getter.step? shared = some (after, next))
    (unfinished : ∀ item?, next ≠ .finished item?) : GoesOn shared getter after next := by
  rcases step?_cases moved with goesOn | ⟨_, item?, _, _, same, _, _⟩
  · exact goesOn
  · exact absurd same (unfinished item?)

theorem finds_of_step? {item? : Option κ}
    (moved : getter.step? shared = some (after, .finished item?)) :
    ∃ ticket?, getter = .joined ticket? ∧ Finds shared.queue item? after.queue := by
  rcases step?_cases moved with goesOn | ⟨ticket?, _, items, joined, same, finds, rfl⟩
  · exact absurd rfl (goesOn.unfinished.2 item?)
  · cases same
    rw [Shared.queue_leave]
    exact ⟨ticket?, joined, finds⟩

/-- A task that makes no step has finished, or waits uncalled. -/
theorem still_cases (still : getter.step? shared = none) :
    (∃ item?, getter = .finished item?) ∨
      ∃ ticket, getter = .waiting (some ticket) ∧ shared.signal.isCalled ticket = false := by
  cases getter with
  | fresh => contradiction
  | joined ticket? =>
      simp only [step?] at still
      split at still
      · contradiction
      · split at still <;> contradiction
  | waiting ticket? =>
      cases ticket? with
      | none => contradiction
      | some ticket =>
          simp only [step?] at still
          split at still
          · contradiction
          · next uncalled => exact .inr ⟨ticket, rfl, by simpa using uncalled⟩
  | finished item? => exact .inl ⟨item?, rfl⟩

theorem not_looks_of_still (still : getter.step? shared = none) : getter.looks = false := by
  rcases still_cases still with ⟨item?, rfl⟩ | ⟨ticket, rfl, _⟩ <;> rfl

theorem uncalled_of_still (still : getter.step? shared = none)
    (own : getter.ticket? = some ticket) : shared.signal.isCalled ticket = false := by
  rcases still_cases still with ⟨item?, rfl⟩ | ⟨waits, rfl, uncalled⟩
  · contradiction
  · cases own
    exact uncalled

end Getter

/-- What a task that waits in line can count on, while some operations have not called yet, some
tasks have not given their tickets back yet, and a shutdown may have to wake those who wait. -/
structure Attended (shared : Shared κ) (getters : List (Getter κ)) (parting : List Ticket)
    (owed : Nat) (closing : Bool) : Prop where
  assigned : shared.signal.Assigned (tickets getters ++ parting)
  emptied (down : shared.queue.down = true) : shared.queue.ready = []
  awaits (ticket : Ticket) (waits : .waiting (some ticket) ∈ getters)
    (line : ticket ∈ shared.signal.waiting) :
    (shared.queue.down = true → closing = true) ∧
      shared.queue.ready.length ≤
        owed + shared.signal.called.length + getters.countP Getter.looks

namespace Attended

section

omit [DecidableEq κ]

theorem perm (attended : Attended shared getters parting owed closing)
    (same : getters.Perm others) : Attended shared others parting owed closing where
  assigned := attended.assigned.perm ((same.filterMap _).append_right _)
  emptied := attended.emptied
  awaits ticket waits line := by
    rw [← same.countP_eq]
    exact attended.awaits ticket (same.mem_iff.mpr waits) line

theorem perm_parting (attended : Attended shared getters parting owed closing)
    {given : List Ticket} (same : parting.Perm given) :
    Attended shared getters given owed closing :=
  { attended with assigned := attended.assigned.perm (same.append_left _) }

/-- An operation on the queue owes a call for every item it makes ready. -/
theorem operate (attended : Attended shared getters parting owed closing) {after : Queue κ}
    (keeps : shared.queue.Keeps after) :
    Attended { shared with queue := after } getters parting
      (owed + (after.length - shared.queue.length)) closing where
  assigned := attended.assigned
  emptied down := by
    have before : shared.queue.down = true := keeps.down ▸ down
    exact (keeps.ready before).trans (attended.emptied before)
  awaits ticket waits line := by
    obtain ⟨closes, counted⟩ := attended.awaits ticket waits line
    refine ⟨fun down => closes (keeps.down ▸ down), ?_⟩
    simp only [Queue.length]
    omega

/-- In a queue that is down nothing is ready, so what is left is to wake those who wait. -/
theorem shutDown (attended : Attended shared getters parting owed closing) :
    Attended { shared with queue := shared.queue.shutDown } getters parting owed true where
  assigned := attended.assigned
  emptied := fun _ => rfl
  awaits := fun _ _ _ => ⟨fun _ => rfl, Nat.zero_le _⟩

theorem callOne (attended : Attended shared getters parting (owed + 1) closing) :
    Attended { shared with signal := shared.signal.callOne } getters parting owed closing where
  assigned := attended.assigned.callOne
  emptied := attended.emptied
  awaits ticket waits line := by
    have before := line
    rw [Signal.waiting_callOne] at before
    obtain ⟨closes, counted⟩ := attended.awaits ticket waits (List.mem_of_mem_tail before)
    refine ⟨closes, ?_⟩
    simp only [Signal.length_called_callOne line]
    omega

theorem callAll (attended : Attended shared getters parting owed closing) :
    Attended { shared with signal := shared.signal.callAll } getters parting owed false where
  assigned := attended.assigned.callAll
  emptied := attended.emptied
  awaits ticket waits line := by contradiction

theorem come (attended : Attended shared getters parting owed closing) :
    Attended shared (getters ++ [.fresh]) parting owed closing where
  assigned := by
    rw [tickets_come]
    exact attended.assigned
  emptied := attended.emptied
  awaits ticket waits line := by
    obtain ⟨closes, counted⟩ := attended.awaits ticket (by simpa using waits) line
    refine ⟨closes, ?_⟩
    rw [List.countP_append]
    omega

/-- A task that goes on will look, or it has just seen that nothing is ready. -/
theorem goOn (attended : Attended shared (getter :: rest) parting owed closing)
    (goesOn : Getter.GoesOn shared getter after next) :
    Attended after (next :: rest) parting owed closing := by
  have assigned := attended.assigned
  have awaits (ticket : Ticket) (waits : .waiting (some ticket) ∈ rest) :=
    attended.awaits ticket (List.mem_cons_of_mem _ waits)
  cases goesOn with
  | joins =>
      refine ⟨?_, attended.emptied, fun ticket waits line => ?_⟩
      · rw [tickets_cons, List.append_assoc]
        exact assigned.join
      · have waits : .waiting (some ticket) ∈ rest := by simpa using waits
        have out := List.mem_append_left parting
          (mem_tickets (List.mem_cons_of_mem Getter.fresh waits))
        have counted := awaits ticket waits
          (Signal.mem_waiting_of_join (assigned.issued ticket out) line)
        simpa [List.countP_cons, Getter.looks] using counted
  | waits up empty =>
      refine ⟨assigned, attended.emptied, fun ticket waits line => ⟨?_, ?_⟩⟩
      · simp [up]
      · simp [empty]
  | permitted =>
      refine ⟨assigned, attended.emptied, fun ticket waits line => ?_⟩
      simpa [List.countP_cons, Getter.looks] using awaits ticket (by simpa using waits) line
  | @answers own called =>
      rw [tickets_cons, List.append_assoc] at assigned
      refine ⟨assigned.answer called, attended.emptied, fun ticket waits line => ?_⟩
      obtain ⟨closes, counted⟩ := awaits ticket (by simpa using waits) line
      have answered := shared.signal.length_called_answer own
      refine ⟨closes, ?_⟩
      simp only [List.countP_cons, Getter.looks, Option.isNone_some, Bool.false_eq_true, if_false,
        if_true] at counted ⊢
      omega

/-- A ticket that is given back takes no call with it. -/
theorem leave (attended : Attended shared getters (ticket :: parting) owed closing) :
    Attended { shared with signal := shared.signal.leave ticket } getters parting owed closing where
  assigned := (attended.assigned.perm List.perm_middle).leave
  emptied := attended.emptied
  awaits other waits line := by
    obtain ⟨closes, counted⟩ := attended.awaits other waits (Signal.mem_waiting_of_leave line)
    refine ⟨closes, ?_⟩
    simp only [Signal.length_called_leave line]
    exact counted

end

/-- A task that finishes keeps its ticket for a moment. -/
theorem finish {ticket? : Option Ticket} {item? : Option κ} {items : Queue κ}
    (attended : Attended shared (.joined ticket? :: rest) parting owed closing)
    (finds : Getter.Finds shared.queue item? items) :
    Attended { shared with queue := items } (.finished item? :: rest) (ticket?.toList ++ parting)
      owed closing := by
  have assigned := attended.assigned
  rw [tickets_cons, List.append_assoc] at assigned
  have moved : (ticket?.toList ++ (tickets rest ++ parting)).Perm
      (tickets (.finished item? :: rest) ++ (ticket?.toList ++ parting)) := by
    rw [← List.append_assoc, ← List.append_assoc]
    exact List.perm_append_comm.append_right _
  have awaits (ticket : Ticket) (waits : .waiting (some ticket) ∈ rest) :=
    attended.awaits ticket (List.mem_cons_of_mem _ waits)
  cases finds with
  | nothing down =>
      have ready := attended.emptied down
      refine ⟨assigned.perm moved, attended.emptied, fun ticket waits line => ⟨?_, ?_⟩⟩
      · exact (awaits ticket (by simpa using waits) line).1
      · simp [ready]
  | item taken =>
      have up := Queue.down_of_take? taken
      refine ⟨assigned.perm moved, by simp [up], fun ticket waits line => ⟨by simp [up], ?_⟩⟩
      have counted := (awaits ticket (by simpa using waits) line).2
      have shorter := congrArg List.length (Queue.take?_eq_some taken).2.1
      rw [List.length_cons] at shorter
      simp only [List.countP_cons, Getter.looks, Bool.false_eq_true, if_false, if_true] at counted ⊢
      omega

/-- When nobody is on the way, those who wait miss nothing. -/
theorem awake (attended : Attended shared getters [] 0 false)
    (still : ∀ getter ∈ getters, getter.step? shared = none) (there : getter ∈ getters)
    (unfinished : ∀ item?, getter ≠ .finished item?) :
    shared.queue.ready = [] ∧ shared.queue.down = false := by
  have out (ticket : Ticket) : ticket ∈ tickets getters ↔
      ticket ∈ shared.signal.waiting ∨ shared.signal.isCalled ticket = true := by
    rw [← attended.assigned.mem_out, List.append_nil]
  have answered : shared.signal.called = [] := by
    refine List.eq_nil_iff_forall_not_mem.mpr fun ticket called => ?_
    have isCalled := Signal.isCalled_iff.mpr (.inl called)
    obtain ⟨holder, among, own⟩ := List.mem_filterMap.mp ((out ticket).mpr (.inr isCalled))
    simp [Getter.uncalled_of_still (still holder among) own] at isCalled
  have looked : getters.countP Getter.looks = 0 :=
    List.countP_eq_zero.mpr fun other among =>
      by simp [Getter.not_looks_of_still (still other among)]
  obtain ⟨item?, rfl⟩ | ⟨ticket, rfl, uncalled⟩ := Getter.still_cases (still getter there)
  · exact absurd rfl (unfinished item?)
  · have line := ((out ticket).mp (mem_tickets there)).resolve_right (by simp [uncalled])
    obtain ⟨closes, counted⟩ := attended.awaits ticket there line
    simp only [answered, looked, List.length_nil, Nat.add_zero, Nat.le_zero_eq] at counted
    exact ⟨List.eq_nil_of_length_eq_zero counted,
      Bool.eq_false_iff.mpr fun down => Bool.false_ne_true (closes down)⟩

end Attended

end ReconcileLoop.Queue
