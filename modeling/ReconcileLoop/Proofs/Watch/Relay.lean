import ReconcileLoop.Watch.Pump

namespace ReconcileLoop

/-! # What comes through a pump

A relay is a pump with the channel that it fills and what was received at the other end. The pump
and the receiver move in any order, and at any point between two of their moves the receiver may be
closed or the pump told to stop: before a delta is read, while the pump waits for room for it, and
after it was sent. As long as the receiver is open, what was received, what is buffered and what the
pump has in hand are together the deltas among the items that were read (`Relay.Carries`), and a pump
that finishes before the end of the stream was told to, or has nobody to send to.
-/

variable {α σ : Type}

namespace Script

/-- The deltas among some items of a stream. -/
def deltas (items : List (Except StoreError (Delta α))) : List (Delta α) :=
  items.filterMap Except.toOption

/-- How many of some items of a stream are errors. -/
def failures (items : List (Except StoreError (Delta α))) : Nat := items.countP (!·.isOk)

@[simp] theorem deltas_append (first second : List (Except StoreError (Delta α))) :
    deltas (first ++ second) = deltas first ++ deltas second := List.filterMap_append

@[simp] theorem deltas_ok (delta : Delta α) : deltas [.ok delta] = [delta] := rfl

@[simp] theorem deltas_error (error : StoreError) : deltas (α := α) [.error error] = [] := rfl

@[simp] theorem failures_append (first second : List (Except StoreError (Delta α))) :
    failures (first ++ second) = failures first + failures second := List.countP_append

@[simp] theorem failures_ok (delta : Delta α) : failures [.ok delta] = 0 := rfl

@[simp] theorem failures_error (error : StoreError) : failures (α := α) [.error error] = 1 := rfl

end Script

/-- The item of a stream that was read, if there was one. -/
def StreamItem.taken : StreamItem α → List (Except StoreError (Delta α))
  | .delta change => [.ok change]
  | .failed error => [.error error]
  | .ended => []
  | .pending => []

namespace Script

variable {script rest : Script α} {item : StreamItem α}

theorem items_of_next (offered : script.next = (item, rest)) :
    script.items = item.taken ++ rest.items := by
  unfold next at offered
  split at offered
  · next delta others items => cases offered; exact items
  · next error others items => cases offered; exact items
  · next items =>
      cases offered
      split <;> rfl

/-- A stream that offers nothing has been read to its end, and stays as it is. -/
theorem exhausted_of_next (offered : script.next = (item, rest)) (nothing : item.taken = []) :
    script.items = [] ∧ rest = script := by
  unfold next at offered
  split at offered
  · cases offered; contradiction
  · cases offered; contradiction
  · next items => cases offered; exact ⟨items, rfl⟩

end Script

/-- The delta that a pump has read and not sent. -/
def PumpStage.held : PumpStage α → List (Delta α)
  | .sending delta => [delta]
  | _ => []

@[simp] theorem PumpStage.held_sending (delta : Delta α) :
    (PumpStage.sending delta).held = [delta] := rfl

@[simp] theorem PumpStage.held_reading : (PumpStage.reading (α := α)).held = [] := rfl

@[simp] theorem PumpStage.held_finished : (PumpStage.finished (α := α)).held = [] := rfl

namespace Channel

variable {β : Type} {channel after : Channel β} {item : β}

/-- There is room only while both ends are open. -/
theorem ends_of_hasRoom (room : channel.hasRoom = true) :
    channel.sending = true ∧ channel.receiving = true := by
  simp only [hasRoom, Bool.and_eq_true] at room
  exact room.1

theorem pop?_eq_some (popped : channel.pop? = some (item, after)) :
    ∃ rest, channel.buffered = item :: rest ∧ after = { channel with buffered := rest } := by
  unfold pop? at popped
  split at popped
  · contradiction
  · next first rest buffered => cases popped; exact ⟨rest, buffered, rfl⟩

end Channel

namespace Pump

/-- The number that the counter of the errors on a watch shows. -/
def errorCount (kind : String) (pump : Pump α σ) : Nat :=
  (Metrics.value? ⟨pump.metrics kind⟩ ⟨.watchErrors, [("kind", kind)]⟩).getD 0

theorem errorCount_eq (kind : String) (pump : Pump α σ) : pump.errorCount kind = pump.errors := by
  unfold errorCount metrics Metrics.value?
  split
  · next none => simp [none]
  · simp

/-- All that a pump can do next, each with what it takes to do it. -/
inductive Moves (next : σ → StreamItem α × σ) (shutdown : Bool) (channel : Channel (Delta α))
    (pump : Pump α σ) : Pump α σ → Channel (Delta α) → Prop where
  | turnAway {delta : Delta α} (waits : pump.stage = .sending delta)
      (closed : channel.receiving = false) :
      Moves next shutdown channel pump { pump with stage := .finished } channel
  | send {delta : Delta α} (waits : pump.stage = .sending delta) (room : channel.hasRoom = true) :
      Moves next shutdown channel pump { pump with stage := .reading } (channel.push delta)
  | stop (reads : pump.stage = .reading) (told : shutdown = true) :
      Moves next shutdown channel pump { pump with stage := .finished } channel
  | take {delta : Delta α} {stream : σ} (reads : pump.stage = .reading)
      (offered : next pump.stream = (.delta delta, stream)) :
      Moves next shutdown channel pump { pump with stream, stage := .sending delta } channel
  | passOver {error : StoreError} {stream : σ} (reads : pump.stage = .reading)
      (offered : next pump.stream = (.failed error, stream)) :
      Moves next shutdown channel pump { pump with stream, errors := pump.errors + 1 } channel
  | runDry {stream : σ} (reads : pump.stage = .reading)
      (offered : next pump.stream = (.ended, stream)) :
      Moves next shutdown channel pump { pump with stream, stage := .finished } channel

variable {next : σ → StreamItem α × σ} {shutdown : Bool} {channel later : Channel (Delta α)}
  {pump after : Pump α σ}

theorem moves_of_step? (moved : pump.step? next shutdown channel = some (after, later)) :
    pump.Moves next shutdown channel after later := by
  unfold step? at moved
  split at moved
  · contradiction
  · next delta waits =>
      split at moved
      · next closed => cases moved; exact .turnAway waits (by simpa using closed)
      · split at moved
        · next room => cases moved; exact .send waits room
        · contradiction
  · next reads =>
      split at moved
      · next told => cases moved; exact .stop reads told
      · split at moved
        · next offered => cases moved; exact .take reads offered
        · next offered => cases moved; exact .passOver reads offered
        · next offered => cases moved; exact .runDry reads offered
        · contradiction

/-- A pump rests when it has finished, when there is no room for what it has read, and when the
stream has nothing to offer. -/
theorem rests_cases (rests : pump.step? next shutdown channel = none) :
    pump.stage = .finished ∨ (∃ delta, pump.stage = .sending delta) ∧ channel.receiving = true ∧
      channel.hasRoom = false ∨
    pump.stage = .reading ∧ ∃ stream, next pump.stream = (.pending, stream) := by
  unfold step? at rests
  split at rests
  · next finished => exact .inl finished
  · next delta waits =>
      split at rests
      · contradiction
      · next opened =>
          split at rests
          · contradiction
          · next full => exact .inr (.inl ⟨⟨delta, waits⟩, by simpa using opened, by simpa using full⟩)
  · next reads =>
      split at rests
      · contradiction
      · split at rests <;> first | contradiction | exact .inr (.inr ⟨reads, _, ‹_›⟩)

theorem stage_of_isFinished (finished : pump.isFinished = true) : pump.stage = .finished := by
  unfold isFinished at finished
  split at finished
  · assumption
  · contradiction

end Pump

/-- A pump with the channel that it fills, and what came out at the other end. -/
structure Relay (α : Type) where
  pump : Pump α (Script α)
  channel : Channel (Delta α)
  /-- What was received, the first delta first. -/
  received : List (Delta α) := []
  shutdown : Bool := false

namespace Relay

def start (script : Script α) (capacity : Nat) : Relay α :=
  { pump := { stream := script }, channel := .ofCapacity capacity }

inductive Step (relay : Relay α) : Relay α → Prop where
  /-- A pump that was told to stop while there is something to read may do either. -/
  | pump {pump : Pump α (Script α)} {channel : Channel (Delta α)} (heeds : Bool)
      (told : heeds = true → relay.shutdown = true)
      (moved : relay.pump.step? Script.next heeds relay.channel = some (pump, channel)) :
      Step relay { relay with pump, channel }
  | receive {delta : Delta α} {channel : Channel (Delta α)}
      (popped : relay.channel.pop? = some (delta, channel)) :
      Step relay { relay with channel, received := relay.received ++ [delta] }
  /-- Nothing more is taken in, but what was sent can still be received. -/
  | close : Step relay { relay with channel := relay.channel.closeReceiver }
  /-- The receiver goes away, and with it what it has not received. -/
  | abandon :
      Step relay { relay with
        channel := relay.channel.closeReceiver.drop relay.channel.buffered.length }
  | shutDown : Step relay { relay with shutdown := true }
  /-- The sender goes away with a pump that has finished. -/
  | hangUp (finished : relay.pump.isFinished = true) :
      Step relay { relay with channel := relay.channel.closeSender }

inductive Reachable (script : Script α) (capacity : Nat) : Relay α → Prop where
  | start : Reachable script capacity (start script capacity)
  | step {relay after : Relay α} (earlier : Reachable script capacity relay)
      (stepped : Step relay after) : Reachable script capacity after

/-- What the pump does when it runs on its own is done in such steps. -/
theorem Reachable.run {script : Script α} {capacity : Nat} {relay : Relay α}
    (reachable : Reachable script capacity relay) (fuel : Nat) :
    Reachable script capacity { relay with
      pump := (relay.pump.run Script.next relay.shutdown relay.channel fuel).1
      channel := (relay.pump.run Script.next relay.shutdown relay.channel fuel).2 } := by
  induction fuel generalizing relay with
  | zero => exact reachable
  | succ fuel ih =>
      unfold Pump.run
      split
      · next pump channel moved => exact ih (.step reachable (.pump relay.shutdown id moved))
      · exact reachable

/-- What holds of a relay that has read some of the items of a stream, and not yet the others. -/
structure Carries (items passed : List (Except StoreError (Delta α))) (relay : Relay α) :
    Prop where
  whole : passed ++ relay.pump.stream.items = items
  errors : relay.pump.errors = Script.failures passed
  order (opened : relay.channel.receiving = true) :
    relay.received ++ relay.channel.buffered ++ relay.pump.stage.held = Script.deltas passed
  first : relay.received ++ relay.channel.buffered <+: Script.deltas passed
  ended (finished : relay.pump.stage = .finished) :
    relay.shutdown = true ∨ relay.channel.receiving = false ∨ relay.pump.stream.items = []
  sending (going : relay.pump.stage ≠ .finished) : relay.channel.sending = true
  capacity : 0 < relay.channel.capacity

namespace Carries

variable {items passed : List (Except StoreError (Delta α))} {relay after : Relay α}

theorem start (script : Script α) (capacity : Nat) :
    (Relay.start script capacity).Carries script.items [] where
  whole := rfl
  errors := rfl
  order _ := rfl
  first := List.nil_prefix
  ended := nofun
  sending _ := rfl
  capacity := Nat.le_max_right ..

/-- Whoever stops has nothing in hand that anybody would receive. -/
theorem finish (carries : relay.Carries items passed)
    (empty : relay.channel.receiving = true → relay.pump.stage.held = [])
    (ended : relay.shutdown = true ∨ relay.channel.receiving = false ∨
      relay.pump.stream.items = []) :
    Carries items passed { relay with pump := { relay.pump with stage := .finished } } where
  whole := carries.whole
  errors := carries.errors
  order opened := by simpa [empty opened] using carries.order opened
  first := carries.first
  ended _ := ended
  sending going := absurd rfl going
  capacity := carries.capacity

theorem send (carries : relay.Carries items passed) {delta : Delta α}
    (waits : relay.pump.stage = .sending delta) (room : relay.channel.hasRoom = true) :
    Carries items passed { relay with
      pump := { relay.pump with stage := .reading }, channel := relay.channel.push delta } := by
  have opened := (Channel.ends_of_hasRoom room).2
  have order : relay.received ++ (relay.channel.buffered ++ [delta]) = Script.deltas passed := by
    simpa [waits] using carries.order opened
  refine ⟨carries.whole, carries.errors, fun _ => ?_, ?_, nofun, fun _ => ?_, carries.capacity⟩
  · simpa [Channel.push] using order
  · exact order ▸ List.prefix_rfl
  · exact carries.sending (by simp [waits])

theorem take (carries : relay.Carries items passed) {delta : Delta α} {stream : Script α}
    (reads : relay.pump.stage = .reading)
    (offered : relay.pump.stream.next = (.delta delta, stream)) :
    Carries items (passed ++ [.ok delta]) { relay with
      pump := { relay.pump with stream, stage := .sending delta } } where
  whole := by
    rw [← carries.whole, Script.items_of_next offered, List.append_assoc]
    rfl
  errors := by simpa using carries.errors
  order opened := by
    have before := carries.order opened
    simp only [reads, PumpStage.held_reading, List.append_nil] at before
    simp [before]
  first := by simpa using carries.first.trans (List.prefix_append ..)
  ended := nofun
  sending _ := carries.sending (by simp [reads])
  capacity := carries.capacity

theorem passOver (carries : relay.Carries items passed) {error : StoreError} {stream : Script α}
    (reads : relay.pump.stage = .reading)
    (offered : relay.pump.stream.next = (.failed error, stream)) :
    Carries items (passed ++ [.error error]) { relay with
      pump := { relay.pump with stream, errors := relay.pump.errors + 1 } } where
  whole := by
    rw [← carries.whole, Script.items_of_next offered, List.append_assoc]
    rfl
  errors := by simp [carries.errors]
  order opened := by simpa using carries.order opened
  first := by simpa using carries.first
  ended finished := absurd (reads.symm.trans finished) nofun
  sending := carries.sending
  capacity := carries.capacity

theorem pump (carries : relay.Carries items passed) {pump : Pump α (Script α)}
    {channel : Channel (Delta α)} {heeds : Bool} (told : heeds = true → relay.shutdown = true)
    (moves : relay.pump.Moves Script.next heeds relay.channel pump channel) :
    ∃ passed, Carries items passed { relay with pump, channel } := by
  cases moves with
  | turnAway waits closed =>
      -- What the pump has in hand is lost here, but only to a receiver that is closed.
      refine ⟨passed, carries.finish (fun opened => ?_) (.inr (.inl closed))⟩
      exact absurd (closed.symm.trans opened) Bool.false_ne_true
  | send waits room => exact ⟨passed, carries.send waits room⟩
  | stop reads now => exact ⟨passed, carries.finish (fun _ => by simp [reads]) (.inl (told now))⟩
  | take reads offered => exact ⟨_, carries.take reads offered⟩
  | passOver reads offered => exact ⟨_, carries.passOver reads offered⟩
  | runDry reads offered =>
      obtain ⟨nothing, rfl⟩ := Script.exhausted_of_next offered rfl
      exact ⟨passed, carries.finish (fun _ => by simp [reads]) (.inr (.inr nothing))⟩

theorem receive (carries : relay.Carries items passed) {delta : Delta α}
    {channel : Channel (Delta α)} (popped : relay.channel.pop? = some (delta, channel)) :
    Carries items passed
      { relay with channel, received := relay.received ++ [delta] } := by
  obtain ⟨rest, buffered, rfl⟩ := Channel.pop?_eq_some popped
  have same : relay.received ++ [delta] ++ rest = relay.received ++ relay.channel.buffered := by
    simp [buffered]
  refine ⟨carries.whole, carries.errors, fun opened => ?_, ?_, carries.ended, carries.sending,
    carries.capacity⟩
  · exact (congrArg (· ++ relay.pump.stage.held) same).trans (carries.order opened)
  · exact same ▸ carries.first

theorem step (carries : relay.Carries items passed) (stepped : Step relay after) :
    ∃ passed, Carries items passed after := by
  cases stepped with
  | pump heeds told moved => exact carries.pump told (Pump.moves_of_step? moved)
  | receive popped => exact ⟨passed, carries.receive popped⟩
  | close =>
      exact ⟨passed, carries.whole, carries.errors, nofun, carries.first,
        fun _ => .inr (.inl rfl), carries.sending, carries.capacity⟩
  | abandon =>
      refine ⟨passed, carries.whole, carries.errors, nofun, ?_, fun _ => .inr (.inl rfl),
        carries.sending, carries.capacity⟩
      have received : relay.received <+: Script.deltas passed :=
        (List.prefix_append ..).trans carries.first
      simpa [Channel.drop, Channel.closeReceiver] using received
  | shutDown =>
      exact ⟨passed, carries.whole, carries.errors, carries.order, carries.first, fun _ => .inl rfl,
        carries.sending, carries.capacity⟩
  | hangUp finished =>
      exact ⟨passed, carries.whole, carries.errors, carries.order, carries.first, carries.ended,
        fun going => absurd (Pump.stage_of_isFinished finished) going, carries.capacity⟩

theorem of_reachable {script : Script α} {capacity : Nat}
    (reachable : Reachable script capacity relay) :
    ∃ passed, relay.Carries script.items passed := by
  induction reachable with
  | start => exact ⟨[], .start script capacity⟩
  | step _ stepped ih =>
      obtain ⟨passed, carries⟩ := ih
      exact carries.step stepped

/-- After the last item all deltas were sent, unless the pump has one in hand. -/
theorem complete (carries : relay.Carries items passed) (opened : relay.channel.receiving = true)
    (empty : relay.pump.stage.held = []) (nothing : relay.pump.stream.items = []) :
    relay.received ++ relay.channel.buffered = Script.deltas items := by
  have all : passed = items := by rw [← carries.whole, nothing, List.append_nil]
  rw [← all, ← carries.order opened, empty, List.append_nil]

end Carries

variable {script : Script α} {capacity : Nat} {relay : Relay α}

/-- While the receiver is open, what was received, what is buffered and what the pump has in hand are
the deltas among the items read so far, in order and each once; the counter shows how many errors were
among those items. What comes out is always the beginning of what the stream has to give. If a pump
finishes and not all of it was sent, then it was shut down or the receiver was closed. -/
theorem forwarded_of_reachable (reachable : Reachable script capacity relay) :
    (∃ passed, passed ++ relay.pump.stream.items = script.items ∧
      (∀ kind, relay.pump.errorCount kind = Script.failures passed) ∧
      (relay.channel.receiving = true →
        relay.received ++ relay.channel.buffered ++ relay.pump.stage.held =
          Script.deltas passed)) ∧
    relay.received ++ relay.channel.buffered <+: Script.deltas script.items ∧
    (relay.pump.isFinished = true →
      relay.received ++ relay.channel.buffered ≠ Script.deltas script.items →
        relay.shutdown = true ∨ relay.channel.receiving = false) := by
  obtain ⟨passed, carries⟩ := Carries.of_reachable reachable
  refine ⟨⟨passed, carries.whole, fun kind => ?_, carries.order⟩, ?_, fun finished missing => ?_⟩
  · rw [Pump.errorCount_eq, carries.errors]
  · rw [← carries.whole, Script.deltas_append]
    exact carries.first.trans (List.prefix_append ..)
  · have stage := Pump.stage_of_isFinished finished
    rcases carries.ended stage with told | closed | nothing
    · exact .inl told
    · exact .inr closed
    · -- The stream has ended, so only a closed receiver can have missed something.
      refine .inr (Bool.eq_false_iff.mpr fun opened => missing ?_)
      exact carries.complete opened (by simp [stage]) nothing

/-- The pump of a channel with room for one delta passes over an error, waits for room, goes on to
send when there is some, and then heeds the shutdown with one delta of the stream unread. -/
theorem forwarded_of_shutDown :
    let items : List (Except StoreError (Delta Nat)) :=
      [.ok .init, .error (.transient "gone"), .ok (.initApplied 7), .ok .initDone]
    ∃ relay, Reachable ⟨items, true⟩ 0 relay ∧
      relay.channel.receiving = true ∧ relay.pump.isFinished = true ∧
      (∃ passed, passed ++ [.ok .initDone] = items ∧
        relay.pump.errorCount "Ingress" = Script.failures passed ∧
        [.init] ++ [.initApplied 7] ++ [] = Script.deltas passed) ∧
      relay.received ++ relay.channel.buffered <+: [.init, .initApplied 7, .initDone] ∧
      (relay.shutdown = true ∨ relay.channel.receiving = false) := by
  intro items
  have read : Reachable ⟨items, true⟩ 0 _ := .step .start (.pump false nofun rfl)
  have sent : Reachable ⟨items, true⟩ 0 _ := .step read (.pump false nofun rfl)
  have failed : Reachable ⟨items, true⟩ 0 _ := .step sent (.pump false nofun rfl)
  have waiting : Reachable ⟨items, true⟩ 0 _ := .step failed (.pump false nofun rfl)
  have told : Reachable ⟨items, true⟩ 0 _ := .step waiting .shutDown
  have received : Reachable ⟨items, true⟩ 0 _ := .step told (.receive rfl)
  have resumed : Reachable ⟨items, true⟩ 0 _ := .step received (.pump false nofun rfl)
  have stopped : Reachable ⟨items, true⟩ 0 _ := .step resumed (.pump true (fun _ => rfl) rfl)
  obtain ⟨⟨passed, whole, errors, order⟩, first, ended⟩ := forwarded_of_reachable stopped
  exact ⟨_, stopped, rfl, rfl, ⟨passed, whole, errors "Ingress", order rfl⟩, first,
    ended rfl (by decide)⟩

/-- If a pump that was not shut down rests while nothing is buffered, then all deltas of the stream
were received. -/
theorem received_of_rests (reachable : Reachable script capacity relay)
    (opened : relay.channel.receiving = true) (on : relay.shutdown = false)
    (drained : relay.channel.buffered = [])
    (rests : relay.pump.step? Script.next relay.shutdown relay.channel = none) :
    relay.received = Script.deltas script.items := by
  obtain ⟨passed, carries⟩ := Carries.of_reachable reachable
  suffices done : relay.pump.stage.held = [] ∧ relay.pump.stream.items = [] by
    simpa [drained] using carries.complete opened done.1 done.2
  rcases Pump.rests_cases rests with finished | ⟨⟨delta, waits⟩, _, full⟩ | ⟨reads, _, offered⟩
  · refine ⟨by simp [finished], ?_⟩
    simpa [on, opened] using carries.ended finished
  · have sending := carries.sending (by simp [waits])
    have room : relay.channel.hasRoom = true := by
      simp [Channel.hasRoom, sending, opened, drained, carries.capacity]
    exact absurd (room.symm.trans full) nofun
  · exact ⟨by simp [reads], (Script.exhausted_of_next offered rfl).1⟩

end Relay

end ReconcileLoop
