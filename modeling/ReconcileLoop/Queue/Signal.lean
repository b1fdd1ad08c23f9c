namespace ReconcileLoop.Queue

/-! # Waking those who wait

A signal has a line of tickets. Calling one wakes the holder of the oldest ticket; with nobody in
line it leaves a permit, of which there is at most one, for whoever comes next. Calling all wakes
everybody in line and leaves nothing.
-/

/-- A place in the line of a signal. -/
abbrev Ticket := Nat

/-- A signal with the tickets that are out. -/
structure Signal where
  permit : Bool := false
  waiting : List Ticket := []
  /-- Tickets that were called one by one and whose holders have not looked yet. -/
  called : List Ticket := []
  /-- Tickets that were called all together and whose holders have not looked yet. -/
  freed : List Ticket := []
  next : Ticket := 0
deriving Repr, Inhabited

namespace Signal

/-- Wakes the oldest in line, or leaves a permit. -/
def callOne (signal : Signal) : Signal :=
  match signal.waiting with
  | [] => { signal with permit := true }
  | ticket :: rest => { signal with waiting := rest, called := signal.called ++ [ticket] }

def callAll (signal : Signal) : Signal :=
  { signal with waiting := [], freed := signal.freed ++ signal.waiting }

/-- Gets in line. Whoever finds a permit uses it up and needs no ticket. -/
def join (signal : Signal) : Option Ticket × Signal :=
  if signal.permit then (none, { signal with permit := false })
  else
    (some signal.next,
      { signal with waiting := signal.waiting ++ [signal.next], next := signal.next + 1 })

def isCalled (signal : Signal) (ticket : Ticket) : Bool :=
  ticket ∈ signal.called || ticket ∈ signal.freed

/-- The holder of a ticket that was called takes note of it. -/
def answer (signal : Signal) (ticket : Ticket) : Signal :=
  { signal with called := signal.called.erase ticket, freed := signal.freed.erase ticket }

/-- Gives a ticket back unused. If it was the one called, the next in line is called instead. -/
def leave (signal : Signal) (ticket : Ticket) : Signal :=
  if ticket ∈ signal.called then
    { signal with called := signal.called.erase ticket }.callOne
  else
    { signal with
      waiting := signal.waiting.erase ticket
      freed := signal.freed.erase ticket }

end Signal

end ReconcileLoop.Queue
