namespace ReconcileLoop

/-! # Bounded channels

A channel between one sender and one receiver holds a bounded number of items. Either end may be
closed; what was sent before can still be received.
-/

structure Channel (β : Type) where
  capacity : Nat
  /-- The items sent and not received, the oldest first. -/
  buffered : List β := []
  /-- Whether items can still be sent. -/
  sending : Bool := true
  /-- Whether the receiver still takes new items. -/
  receiving : Bool := true
deriving DecidableEq, Repr, Inhabited

namespace Channel

variable {β : Type}

/-- An empty channel; it has room for at least one item. -/
def ofCapacity (capacity : Nat) : Channel β := { capacity := max capacity 1 }

def hasRoom (channel : Channel β) : Bool :=
  channel.sending && channel.receiving && decide (channel.buffered.length < channel.capacity)

/-- Sends an item, for which there has to be room. -/
def push (channel : Channel β) (item : β) : Channel β :=
  { channel with buffered := channel.buffered ++ [item] }

/-- Sends items until one does not fit, and says how many did. -/
def pushAll (channel : Channel β) : List β → Channel β × Nat
  | [] => (channel, 0)
  | item :: rest =>
      if channel.hasRoom then
        let (after, sent) := (channel.push item).pushAll rest
        (after, sent + 1)
      else (channel, 0)

def pop? (channel : Channel β) : Option (β × Channel β) :=
  match channel.buffered with
  | [] => none
  | item :: rest => some (item, { channel with buffered := rest })

def drop (channel : Channel β) (count : Nat) : Channel β :=
  { channel with buffered := channel.buffered.drop count }

def closeSender (channel : Channel β) : Channel β := { channel with sending := false }

def closeReceiver (channel : Channel β) : Channel β := { channel with receiving := false }

end Channel

end ReconcileLoop
