import ReconcileLoop.Proofs.Queue.Attended

namespace ReconcileLoop.Queue

/-! # Tasks come to rest

A task that goes on uses up a call or a permit, or comes nearer to where it waits for one. `load`
weighs both, so that every step of a task takes something off (`Getter.load_lt_of_goesOn`), and
giving a ticket back adds nothing (`Signal.load_leave_le`).
-/

namespace Signal

variable {signal : Signal} {ticket : Ticket}

/-- A permit is worth more than two steps of the task that uses it up, and a call more than all
steps of the task that answers it. -/
def load (signal : Signal) : Nat :=
  4 * (signal.called.length + signal.freed.length) + 3 * signal.permit.toNat

theorem load_callOne_le (signal : Signal) : signal.callOne.load ≤ signal.load + 4 := by
  unfold callOne
  split
  · simp only [load, Bool.toNat_true]
    omega
  · simp only [load, List.length_append, List.length_singleton]
    omega

theorem load_answer_lt (called : signal.isCalled ticket = true) :
    (signal.answer ticket).load + 4 ≤ signal.load := by
  have fewer := (List.erase_sublist (a := ticket) (l := signal.called)).length_le
  have less := (List.erase_sublist (a := ticket) (l := signal.freed)).length_le
  rcases isCalled_iff.mp called with one | all
  · have there := List.length_pos_of_mem one
    simp only [answer, load, List.length_erase_of_mem one]
    omega
  · have there := List.length_pos_of_mem all
    simp only [answer, load, List.length_erase_of_mem all]
    omega

theorem load_leave_le (signal : Signal) (ticket : Ticket) :
    (signal.leave ticket).load ≤ signal.load := by
  unfold leave
  split
  · next called =>
      have passedOn := load_callOne_le { signal with called := signal.called.erase ticket }
      have there := List.length_pos_of_mem called
      simp only [load, List.length_erase_of_mem called] at passedOn ⊢
      omega
  · have fewer := (List.erase_sublist (a := ticket) (l := signal.freed)).length_le
    simp only [load]
    omega

end Signal

namespace Getter

variable {κ : Type}

/-- A task that has used up a permit is about to look twice. -/
def load : Getter κ → Nat
  | fresh => 3
  | joined none => 5
  | joined (some _) => 2
  | waiting none => 4
  | waiting (some _) => 0
  | finished _ => 0

theorem load_lt_of_goesOn {shared after : Shared κ} {getter next : Getter κ}
    (goesOn : GoesOn shared getter after next) :
    after.signal.load + next.load < shared.signal.load + getter.load := by
  cases goesOn with
  | joins =>
      unfold Signal.join
      split
      · next permit => simp [Signal.load, load, permit]
      · simp [Signal.load, load]
  | @waits ticket? up empty => cases ticket? <;> simp [load]
  | permitted => simp [load]
  | answers called =>
      have answered := Signal.load_answer_lt called
      simp only [load]
      omega

/-- A task that finishes and keeps its ticket for a moment. -/
theorem load_joined (ticket? : Option Ticket) :
    ticket?.toList.length < (joined ticket? : Getter κ).load := by
  cases ticket? <;> simp [load]

def loads : List (Getter κ) → Nat
  | [] => 0
  | getter :: rest => getter.load + loads rest

theorem loads_set {getters : List (Getter κ)} {place : Nat} {getter : Getter κ}
    (there : getters[place]? = some getter) (next : Getter κ) :
    loads (getters.set place next) + getter.load = loads getters + next.load := by
  induction getters generalizing place with
  | nil => simp at there
  | cons first rest ih =>
      cases place with
      | zero =>
          cases there
          simp only [List.set_cons_zero, loads]
          omega
      | succ place =>
          have later := ih (by simpa using there)
          simp only [List.set_cons_succ, loads]
          omega

end Getter

end ReconcileLoop.Queue
