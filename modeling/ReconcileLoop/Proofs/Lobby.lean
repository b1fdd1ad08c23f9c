import ReconcileLoop.Proofs.Queue.Load

namespace ReconcileLoop

/-! # Nobody waits for what is there

The queue is changed under a lock, but those who wait are called only after that, and a task that
finishes gives its ticket back only after that too. A `Lobby` is a work queue with the tasks that
get items from it and with what is still to be called and given back, so that between any two of
these parts anything else can happen. Left alone, the tasks always come to rest
(`Lobby.wellFounded_move`), and whoever waits then waits for an item that has yet to come
(`Lobby.awake_of_reachable`).
-/

variable {κ : Type} [DecidableEq κ]

omit [DecidableEq κ] in
theorem Queue.Shared.changed_cases {shared : Queue.Shared κ} {after : Queue κ} {item : κ}
    (ready : after.ready = shared.queue.ready ++ [item] ∨ after.ready = shared.queue.ready) :
    ((shared.changed after).queue.ready = shared.queue.ready ∧
        (shared.changed after).signal = shared.signal) ∨
      ∃ item, (shared.changed after).queue.ready = shared.queue.ready ++ [item] ∧
        (shared.changed after).signal = shared.signal.callOne := by
  rcases ready with more | same
  · exact .inr ⟨item, more, by simp [changed, Queue.length, more]⟩
  · exact .inl ⟨same, by simp [changed, Queue.length, same]⟩

namespace WorkQueue

/-- What happens to a queue, apart from getting items and from a shutdown. -/
inductive Operates (queue : WorkQueue κ) : WorkQueue κ → Prop where
  | call (call : Call κ) (goesOn : call ≠ .shutDown) : Operates queue (queue.perform call)
  /-- A delay has ended. -/
  | elapse {before after : List (DelayedAdd κ)} {delayed : DelayedAdd κ}
      (pending : queue.delayed = before ++ delayed :: after)
      (due : Duration.ofMillis delayed.due ≤ queue.now) :
      Operates queue ({ queue with delayed := before ++ after }.add delayed.item)
  /-- Time passes, the limiter is asked, or a delayed add is timed or called off. -/
  | aside {after : WorkQueue κ} (same : after.shared = queue.shared) : Operates queue after

variable {queue after : WorkQueue κ}

theorem Operates.cases (operates : queue.Operates after) :
    after.shared = queue.shared ∨
      ∃ item, after.shared = queue.shared.add item ∨ after.shared = queue.shared.done item := by
  cases operates with
  | call call goesOn => exact queue.perform_cases goesOn
  | elapse pending due => exact .inr ⟨_, .inl rfl⟩
  | aside same => exact .inl same

theorem Operates.keeps (operates : queue.Operates after) :
    queue.shared.queue.Keeps after.shared.queue := by
  rcases operates.cases with same | ⟨item, same | same⟩
  · exact same ▸ .refl _
  · exact same ▸ .add _ item
  · exact same ▸ .done _ item

/-- An operation makes at most one item ready, as the last one, and calls if it does. -/
theorem Operates.ready (operates : queue.Operates after) :
    (after.shared.queue.ready = queue.shared.queue.ready ∧
        after.shared.signal = queue.shared.signal) ∨
      ∃ item, after.shared.queue.ready = queue.shared.queue.ready ++ [item] ∧
        after.shared.signal = queue.shared.signal.callOne := by
  rcases operates.cases with same | ⟨item, same | same⟩
  · exact .inl (by simp [same])
  · have ready := Queue.ready_add queue.shared.queue item
    rw [same]
    exact Queue.Shared.changed_cases (ready.symm ▸ ite_eq_or_eq ..)
  · have ready := Queue.ready_done queue.shared.queue item
    rw [same]
    exact Queue.Shared.changed_cases (ready.symm ▸ ite_eq_or_eq ..)

end WorkQueue

/-- A work queue with the tasks that get items from it, and with what is still to be done when the
lock of the queue has been released. -/
structure Lobby (κ : Type) where
  queue : WorkQueue κ
  getters : List (Queue.Getter κ) := []
  /-- How many operations have made an item ready and not called yet. -/
  owed : Nat := 0
  /-- Whether a shutdown still has to wake those who wait. -/
  closing : Bool := false
  /-- The tickets of tasks that have finished and not given them back yet. -/
  parting : List Queue.Ticket := []
  /-- The items that were made ready, in that order. -/
  entered : List κ := []
  /-- The items that a shutdown dropped. -/
  dropped : List κ := []
  /-- Which task was handed which item, in that order. -/
  served : List (Nat × κ) := []

namespace Lobby

/-- An operation up to where it releases the lock. -/
def operate (lobby : Lobby κ) (after : WorkQueue κ) : Lobby κ :=
  { lobby with
    queue := { after with shared.signal := lobby.queue.shared.signal }
    owed := lobby.owed + (after.length - lobby.queue.length)
    entered := lobby.entered ++ after.shared.queue.ready.drop lobby.queue.length }

/-- A shutdown up to where it releases the lock. -/
def shutDown (lobby : Lobby κ) : Lobby κ :=
  { lobby with
    queue.shared.queue := lobby.queue.shared.queue.shutDown
    closing := true
    dropped := lobby.dropped ++ lobby.queue.shared.queue.ready }

/-- A task that finishes, up to where it releases the lock. -/
def finish (lobby : Lobby κ) (place : Nat) (getter : Queue.Getter κ) (item? : Option κ)
    (items : Queue κ) : Lobby κ :=
  { lobby with
    queue.shared.queue := items
    getters := lobby.getters.set place (.finished item?)
    parting := getter.ticket?.toList ++ lobby.parting
    served := lobby.served ++ item?.toList.map (place, ·) }

/-- What goes on by itself: calls that are due, and the steps of the tasks. -/
inductive Move (lobby : Lobby κ) : Lobby κ → Prop where
  | call {owed : Nat} (due : lobby.owed = owed + 1) :
      Move lobby { lobby with queue.shared.signal := lobby.queue.shared.signal.callOne, owed }
  | callAll (due : lobby.closing = true) :
      Move lobby
        { lobby with queue.shared.signal := lobby.queue.shared.signal.callAll, closing := false }
  | goOn (place : Nat) {getter next : Queue.Getter κ} {shared : Queue.Shared κ}
      (there : lobby.getters[place]? = some getter)
      (moved : getter.step? lobby.queue.shared = some (shared, next))
      (goesOn : ∀ item?, next ≠ .finished item?) :
      Move lobby { lobby with queue.shared := shared, getters := lobby.getters.set place next }
  | finish (place : Nat) {getter : Queue.Getter κ} {shared : Queue.Shared κ} {item? : Option κ}
      (there : lobby.getters[place]? = some getter)
      (moved : getter.step? lobby.queue.shared = some (shared, .finished item?)) :
      Move lobby (lobby.finish place getter item? shared.queue)
  /-- A task that has finished gives its ticket back. -/
  | part {ticket : Queue.Ticket} (there : ticket ∈ lobby.parting) :
      Move lobby
        { lobby with
          queue.shared.signal := lobby.queue.shared.signal.leave ticket
          parting := lobby.parting.erase ticket }

inductive Step (lobby : Lobby κ) : Lobby κ → Prop where
  | move {after : Lobby κ} (moved : Move lobby after) : Step lobby after
  | operate {queue : WorkQueue κ} (operates : lobby.queue.Operates queue) :
      Step lobby (lobby.operate queue)
  | come : Step lobby { lobby with getters := lobby.getters ++ [.fresh] }
  | shutDown (up : lobby.queue.isDown = false) : Step lobby lobby.shutDown

inductive Reachable : Lobby κ → Prop where
  | start (limiter : Limiter κ) : Reachable { queue := { limiter } }
  | step {lobby after : Lobby κ} (earlier : Reachable lobby) (stepped : Step lobby after) :
      Reachable after

/-- Nothing goes on by itself any more. -/
def AtRest (lobby : Lobby κ) : Prop := ∀ after, ¬Move lobby after

variable {lobby after : Lobby κ}

/-- With nothing in between, the parts are the operations of the queue and the steps of the
tasks. -/
structure Whole (lobby : Lobby κ) : Prop where
  /-- An operation on the queue, with its call. -/
  operates {queue : WorkQueue κ} (operates : lobby.queue.Operates queue) :
    Relation.ReflTransGen Step lobby
      { lobby with
        queue
        entered := lobby.entered ++ queue.shared.queue.ready.drop lobby.queue.length }
  /-- A step of a task, which gives its ticket back when it has finished. -/
  gets {place : Nat} {getter next : Queue.Getter κ} {shared : Queue.Shared κ}
    (there : lobby.getters[place]? = some getter)
    (moved : getter.step? lobby.queue.shared = some (shared, next)) :
    Relation.ReflTransGen Move lobby
      { lobby with
        queue.shared := shared
        getters := lobby.getters.set place next
        served := lobby.served ++ next.taken?.toList.map (place, ·) }
  /-- A shutdown, which calls the delayed adds off as well. -/
  shutsDown (up : lobby.queue.isDown = false) (idle : lobby.closing = false) :
    Relation.ReflTransGen Step lobby
      { lobby with
        queue := lobby.queue.shutDown
        dropped := lobby.dropped ++ lobby.queue.shared.queue.ready }

theorem operate_steps {queue : WorkQueue κ} (operates : lobby.queue.Operates queue) :
    Relation.ReflTransGen Step lobby
      { lobby with
        queue
        entered := lobby.entered ++ queue.shared.queue.ready.drop lobby.queue.length } := by
  have first := Step.operate operates
  rcases operates.ready with ⟨same, signal⟩ | ⟨item, more, signal⟩
  · have length : queue.length = lobby.queue.length := congrArg List.length same
    simp only [operate, ← signal, length, Nat.sub_self, Nat.add_zero] at first
    exact .single first
  · have length : queue.length - lobby.queue.length = 1 := by
      simp [WorkQueue.length, Queue.length, more]
    have owes : (lobby.operate queue).owed = lobby.owed + 1 := by rw [operate, length]
    have second := Step.move (.call owes)
    have settled : (lobby.operate queue).queue.shared.signal.callOne = queue.shared.signal :=
      signal.symm
    simp only [settled] at second
    exact .head first (.single second)

theorem whole (lobby : Lobby κ) : lobby.Whole where
  operates := operate_steps
  gets {place getter next shared} there moved := by
    rcases Queue.Getter.step?_cases moved with goes | ⟨ticket?, item?, items, rfl, rfl, _, rfl⟩
    · have first := Move.goOn place there moved goes.unfinished.2
      have nothing : next.taken? = none := by cases goes <;> rfl
      rw [nothing]
      simpa using Relation.ReflTransGen.single first
    · have first := Move.finish place there moved
      rw [Queue.Shared.queue_leave] at first
      cases ticket? with
      | none => exact .single first
      | some ticket =>
          let finished := lobby.finish place (.joined (some ticket)) item? items
          have own : ticket ∈ finished.parting := List.mem_cons_self ..
          have second := Move.part own
          have erased : finished.parting.erase ticket = lobby.parting := List.erase_cons_head ..
          rw [erased] at second
          exact .head first (.single second)
  shutsDown up idle := by
    let called : Lobby κ :=
      { lobby with
        queue.shared :=
          { queue := lobby.queue.shared.queue.shutDown
            signal := lobby.queue.shared.signal.callAll }
        dropped := lobby.dropped ++ lobby.queue.shared.queue.ready }
    have first := Step.shutDown up
    have due : lobby.shutDown.closing = true := rfl
    have second : Step lobby.shutDown called := by
      have moved := Step.move (.callAll due)
      rw [← idle] at moved
      exact moved
    have same : lobby.queue.shutDown.shared = called.queue.shared :=
      if_neg (by simpa [WorkQueue.isDown] using up)
    have third : Relation.ReflTransGen Step called _ := operate_steps (.aside same)
    refine .head first (.head second ?_)
    simpa [same, called] using third

/-! What the parts keep. -/

def Attended (lobby : Lobby κ) : Prop :=
  Queue.Attended lobby.queue.shared lobby.getters lobby.parting lobby.owed lobby.closing

theorem Attended.move (attended : lobby.Attended)
    (moved : Move lobby after) : after.Attended := by
  cases moved with
  | call due =>
      unfold Attended at attended
      rw [due] at attended
      exact attended.callOne
  | callAll due => exact Queue.Attended.callAll attended
  | goOn place there moved goesOn =>
      obtain ⟨before, later⟩ := Counter.perm_place there _
      have goes := Queue.Getter.goesOn_of_step? moved goesOn
      exact ((Queue.Attended.perm attended before).goOn goes).perm later
  | finish place there moved =>
      obtain ⟨before, later⟩ := Counter.perm_place there _
      obtain ⟨ticket?, rfl, finds⟩ := Queue.Getter.finds_of_step? moved
      exact ((Queue.Attended.perm attended before).finish finds).perm later
  | part there =>
      exact (Queue.Attended.perm_parting attended (List.perm_cons_erase there)).leave

theorem Attended.step (attended : lobby.Attended)
    (stepped : Step lobby after) : after.Attended := by
  cases stepped with
  | move moved => exact attended.move moved
  | operate operates => exact Queue.Attended.operate attended operates.keeps
  | come => exact Queue.Attended.come attended
  | shutDown up => exact Queue.Attended.shutDown attended

/-- Each item that was made ready has been handed to one task, or was dropped, or is still ready,
and a task has finished with an item it was handed, or without one in a queue that is down. -/
structure Served (lobby : Lobby κ) : Prop where
  order : lobby.entered =
    lobby.served.map Prod.snd ++ (lobby.dropped ++ lobby.queue.shared.queue.ready)
  kept (up : lobby.queue.isDown = false) : lobby.dropped = []
  once : (lobby.served.map Prod.fst).Nodup
  handed (place : Nat) (item : κ) :
    (place, item) ∈ lobby.served ↔ lobby.getters[place]? = some (.finished (some item))
  told (place : Nat) (empty : lobby.getters[place]? = some (.finished none)) :
    lobby.queue.isDown = true

omit [DecidableEq κ] in
theorem getElem?_set_of_there {getters : List (Queue.Getter κ)} {place : Nat}
    {getter : Queue.Getter κ} (there : getters[place]? = some getter) (next : Queue.Getter κ)
    (other : Nat) :
    (getters.set place next)[other]? = if place = other then some next else getters[other]? := by
  obtain ⟨inside, _⟩ := List.getElem?_eq_some_iff.mp there
  rw [List.getElem?_set, if_pos inside]

omit [DecidableEq κ] in
theorem finished_come {getters : List (Queue.Getter κ)} {place : Nat} {item? : Option κ} :
    (getters ++ [.fresh])[place]? = some (.finished item?) ↔
      getters[place]? = some (.finished item?) := by
  rw [List.getElem?_append]
  split
  · rfl
  · next outside => simp [List.getElem?_singleton, List.getElem?_eq_none (Nat.le_of_not_lt outside)]

namespace Served

omit [DecidableEq κ] in
theorem goOn (served : lobby.Served) {place : Nat} {getter next : Queue.Getter κ}
    {shared : Queue.Shared κ} (there : lobby.getters[place]? = some getter)
    (goes : Queue.Getter.GoesOn lobby.queue.shared getter shared next) :
    Served { lobby with queue.shared := shared, getters := lobby.getters.set place next } := by
  obtain ⟨before, later⟩ := goes.unfinished
  refine ⟨?_, ?_, served.once, fun other item => ?_, fun other empty => ?_⟩
  · simpa [goes.queue] using served.order
  · simpa [goes.queue, WorkQueue.isDown] using served.kept
  · change _ ↔ (lobby.getters.set place next)[other]? = _
    rw [served.handed, getElem?_set_of_there there]
    split
    · next same =>
        subst same
        simp [there, before, later]
    · rfl
  · change (lobby.getters.set place next)[other]? = _ at empty
    rw [getElem?_set_of_there there] at empty
    split at empty
    · exact absurd (Option.some.inj empty) (later none)
    · simpa [goes.queue, WorkQueue.isDown] using served.told other empty

theorem finish (served : lobby.Served) {place : Nat} {ticket? : Option Queue.Ticket}
    {items : Queue κ} {item? : Option κ}
    (there : lobby.getters[place]? = some (.joined ticket?))
    (finds : Queue.Getter.Finds lobby.queue.shared.queue item? items) :
    (lobby.finish place (.joined ticket?) item? items).Served := by
  have free (item : κ) : (place, item) ∉ lobby.served := fun mine => by
    simp [(served.handed place item).mp mine] at there
  have now (other : Nat) : (lobby.finish place (.joined ticket?) item? items).getters[other]? =
      if place = other then some (.finished item?) else lobby.getters[other]? :=
    getElem?_set_of_there there _ other
  refine ⟨?_, fun up => served.kept (finds.down.symm.trans up), ?_, fun other item => ?_,
    fun other empty => ?_⟩
  · cases finds with
    | nothing down => simpa [Lobby.finish] using served.order
    | item taken =>
        obtain ⟨up, ready, _⟩ := Queue.take?_eq_some taken
        have order := served.order
        simpa [Lobby.finish, ready, served.kept up] using order
  · cases item? with
    | none => simpa [Lobby.finish] using served.once
    | some item =>
        have fresh : place ∉ lobby.served.map Prod.fst := by
          rintro mine
          obtain ⟨⟨_, other⟩, handed, rfl⟩ := List.mem_map.mp mine
          exact free other handed
        simpa [Lobby.finish] using List.Nodup.concat fresh served.once
  · rw [now]
    split
    · next same =>
        subst same
        simp [Lobby.finish, free]
    · next differ => simp [Lobby.finish, differ, served.handed]
  · rw [now] at empty
    split at empty
    · cases empty
      cases finds with
      | nothing down => exact down
    · exact finds.down.trans (served.told other empty)

theorem move (served : lobby.Served) (moved : Move lobby after) : after.Served := by
  cases moved with
  | call due => exact ⟨served.order, served.kept, served.once, served.handed, served.told⟩
  | callAll due => exact ⟨served.order, served.kept, served.once, served.handed, served.told⟩
  | goOn place there moved goesOn =>
      exact served.goOn there (Queue.Getter.goesOn_of_step? moved goesOn)
  | finish place there moved =>
      obtain ⟨ticket?, rfl, finds⟩ := Queue.Getter.finds_of_step? moved
      exact served.finish there finds
  | part there => exact ⟨served.order, served.kept, served.once, served.handed, served.told⟩

theorem operate (served : lobby.Served) {queue : WorkQueue κ}
    (operates : lobby.queue.Operates queue) : (lobby.operate queue).Served where
  order := by
    have order := served.order
    rcases operates.ready with ⟨same, _⟩ | ⟨item, more, _⟩
    · simp [Lobby.operate, WorkQueue.length, Queue.length, same, order]
    · simp [Lobby.operate, WorkQueue.length, Queue.length, more, order]
  kept up := served.kept (operates.keeps.down.symm.trans up)
  once := served.once
  handed := served.handed
  told place empty := operates.keeps.down.trans (served.told place empty)

theorem step (served : lobby.Served) (stepped : Step lobby after) : after.Served := by
  cases stepped with
  | move moved => exact served.move moved
  | operate operates => exact served.operate operates
  | come =>
      refine ⟨served.order, served.kept, served.once, fun place item => ?_, fun place empty => ?_⟩
      · exact (served.handed place item).trans finished_come.symm
      · exact served.told place (finished_come.mp empty)
  | shutDown up =>
      have kept := served.kept up
      refine ⟨?_, ?_, served.once, served.handed, fun place empty => rfl⟩
      · have order := served.order
        simpa [Lobby.shutDown, kept] using order
      · nofun

end Served

/-! Coming to rest. -/

/-- What is left to do, where a call is worth more than the steps of the task that answers it. -/
def load (lobby : Lobby κ) : Nat :=
  5 * lobby.owed + lobby.queue.shared.signal.load + lobby.parting.length +
    Queue.Getter.loads lobby.getters

/-- Every move takes something off the load, apart from the one with which a shutdown ends. -/
theorem Move.load_lt (moved : Move lobby after) :
    after.closing = lobby.closing ∧ after.load < lobby.load ∨
      lobby.closing = true ∧ after.closing = false := by
  cases moved with
  | call due =>
      have called := lobby.queue.shared.signal.load_callOne_le
      refine .inl ⟨rfl, ?_⟩
      simp only [load, due]
      omega
  | callAll due => exact .inr ⟨due, rfl⟩
  | @goOn place getter next shared there moved goesOn =>
      have lighter := Queue.Getter.load_lt_of_goesOn (Queue.Getter.goesOn_of_step? moved goesOn)
      have moves := Queue.Getter.loads_set there next
      refine .inl ⟨rfl, ?_⟩
      simp only [load]
      omega
  | @finish place getter shared item? there moved =>
      obtain ⟨ticket?, rfl, _⟩ := Queue.Getter.finds_of_step? moved
      have moves := Queue.Getter.loads_set there (.finished item?)
      have lighter := Queue.Getter.load_joined (κ := κ) ticket?
      have finished : (Queue.Getter.finished item?).load = 0 := rfl
      have parting : (Queue.Getter.joined ticket? : Queue.Getter κ).ticket? = ticket? := rfl
      refine .inl ⟨rfl, ?_⟩
      simp only [load, Lobby.finish, parting, List.length_append]
      omega
  | @part ticket there =>
      have given := lobby.queue.shared.signal.load_leave_le ticket
      have fewer := List.length_erase_of_mem there
      have nonempty := List.length_pos_of_mem there
      refine .inl ⟨rfl, ?_⟩
      simp only [load, fewer]
      omega

/-- However the tasks go on by themselves, they come to rest. -/
theorem wellFounded_move : WellFounded fun after before : Lobby κ => Move before after := by
  have ranked := InvImage.wf (fun lobby : Lobby κ => (lobby.closing.toNat, lobby.load))
    (Prod.lex Nat.lt_wfRel Nat.lt_wfRel).wf
  refine Subrelation.wf (fun {after before} moved => ?_) ranked
  refine Prod.lex_def.mpr ?_
  rcases moved.load_lt with ⟨same, lighter⟩ | ⟨closing, closed⟩
  · exact .inr ⟨congrArg Bool.toNat same, lighter⟩
  · have shut : after.closing.toNat < before.closing.toNat := by
      rw [closing, closed]
      exact Nat.zero_lt_one
    exact .inl shut

theorem atRest_iff : lobby.AtRest ↔
    lobby.owed = 0 ∧ lobby.closing = false ∧ lobby.parting = [] ∧
      ∀ getter ∈ lobby.getters, getter.step? lobby.queue.shared = none := by
  constructor
  · intro rest
    refine ⟨?_, ?_, ?_, fun getter there => ?_⟩
    · cases due : lobby.owed with
      | zero => rfl
      | succ owed => exact absurd (.call due) (rest _)
    · exact Bool.eq_false_iff.mpr fun due => rest _ (.callAll due)
    · exact List.eq_nil_iff_forall_not_mem.mpr fun ticket there => rest _ (.part there)
    · obtain ⟨place, there⟩ := List.mem_iff_getElem?.mp there
      cases moved : getter.step? lobby.queue.shared with
      | none => rfl
      | some result =>
          obtain ⟨shared, next⟩ := result
          cases next with
          | finished item? => exact absurd (.finish place there moved) (rest _)
          | fresh => exact absurd (.goOn place there moved nofun) (rest _)
          | joined ticket? => exact absurd (.goOn place there moved nofun) (rest _)
          | waiting ticket? => exact absurd (.goOn place there moved nofun) (rest _)
  · rintro ⟨nothing, up, kept, still⟩ after moved
    cases moved with
    | call due => simp [nothing] at due
    | callAll due => simp [up] at due
    | goOn place there moved goesOn => simp [still _ (List.mem_of_getElem? there)] at moved
    | finish place there moved => simp [still _ (List.mem_of_getElem? there)] at moved
    | part there => simp [kept] at there

theorem Reachable.kept (reachable : Reachable lobby) : lobby.Attended ∧ lobby.Served := by
  induction reachable with
  | start limiter =>
      refine ⟨⟨⟨.refl _, List.nodup_nil, nofun, fun _ => rfl⟩, fun _ => rfl, nofun⟩, ?_⟩
      exact ⟨rfl, fun _ => rfl, List.nodup_nil, by simp, by simp⟩
  | step _ stepped ih => exact ⟨ih.1.step stepped, ih.2.step stepped⟩

/-- However the parts of the operations and the steps of the tasks take turns: left alone, the tasks
come to rest, and then each of them has finished, or waits while no item is ready and the queue is
up. Each item that was made ready is handed to one task, unless it is dropped or still ready, and no
task finishes without an item unless the queue is down. -/
theorem awake_of_reachable (reachable : Reachable lobby) :
    lobby.Whole ∧
    Acc (fun after before => Move before after) lobby ∧
    (lobby.AtRest → ∀ getter ∈ lobby.getters, (∀ item?, getter ≠ .finished item?) →
      lobby.queue.shared.queue.ready = [] ∧ lobby.queue.isDown = false) ∧
    lobby.Served := by
  obtain ⟨attended, served⟩ := reachable.kept
  refine ⟨lobby.whole, wellFounded_move.apply lobby, fun rest getter there unfinished => ?_, served⟩
  obtain ⟨owed, closing, parting, still⟩ := atRest_iff.mp rest
  unfold Attended at attended
  rw [owed, closing, parting] at attended
  exact attended.awake still there unfinished

/-- A task that comes later takes the item for which another one is called, which finds nothing and
waits again. -/
theorem awake_of_overtaken :
    ∃ lobby : Lobby Nat, Reachable lobby ∧ lobby.AtRest ∧
      lobby.getters = [.waiting (some 2), .finished (some 7)] ∧
      lobby.queue.shared.queue.ready = [] ∧ lobby.entered = [7] ∧ lobby.Served := by
  have came : Reachable (κ := Nat) _ := .step (.start (.longest [])) .come
  have joined : Reachable (κ := Nat) _ := .step came (.move (.goOn 0 rfl rfl nofun))
  have waits : Reachable (κ := Nat)
      { queue := { limiter := .longest [], shared.signal := { waiting := [0], next := 1 } }
        getters := [.waiting (some 0)] } :=
    .step joined (.move (.goOn 0 rfl rfl nofun))
  have added : Reachable (κ := Nat) _ := .step waits (.operate (.call (.add 7) nofun))
  have other : Reachable (κ := Nat)
      { queue :=
          { limiter := .longest []
            shared.signal := { waiting := [0], next := 1 }
            shared.queue := { ready := [7], dirty := [7], adds := 1, depth := some 1 } }
        getters := [.waiting (some 0), .fresh]
        owed := 1
        entered := [7] } :=
    .step added .come
  have behind : Reachable (κ := Nat) _ := .step other (.move (.goOn 1 rfl rfl nofun))
  have taken : Reachable (κ := Nat) _ := .step behind (.move (.finish 1 rfl rfl))
  have called : Reachable (κ := Nat)
      { queue :=
          { limiter := .longest []
            shared.signal := { waiting := [1], called := [0], next := 2 }
            shared.queue := { processing := [7], adds := 1, depth := some 0 } }
        getters := [.waiting (some 0), .finished (some 7)]
        parting := [1]
        entered := [7]
        served := [(1, 7)] } :=
    .step taken (.move (.call rfl))
  have left : Reachable (κ := Nat) _ := .step called (.move (.part (List.mem_singleton_self 1)))
  have answers : Reachable (κ := Nat)
      { queue :=
          { limiter := .longest []
            shared.signal := { next := 2 }
            shared.queue := { processing := [7], adds := 1, depth := some 0 } }
        getters := [.fresh, .finished (some 7)]
        entered := [7]
        served := [(1, 7)] } :=
    .step left (.move (.goOn 0 rfl rfl nofun))
  have again : Reachable (κ := Nat) _ := .step answers (.move (.goOn 0 rfl rfl nofun))
  have still : Reachable (κ := Nat)
      { queue :=
          { limiter := .longest []
            shared.signal := { waiting := [2], next := 3 }
            shared.queue := { processing := [7], adds := 1, depth := some 0 } }
        getters := [.waiting (some 2), .finished (some 7)]
        entered := [7]
        served := [(1, 7)] } :=
    .step again (.move (.goOn 0 rfl rfl nofun))
  obtain ⟨_, _, awake, served⟩ := awake_of_reachable still
  refine ⟨_, still, ?rest, rfl,
    (awake ?rest (.waiting (some 2)) (List.mem_cons_self ..) nofun).1, rfl, served⟩
  refine atRest_iff.mpr ⟨rfl, rfl, rfl, fun getter there => ?_⟩
  rcases List.mem_pair.mp there with rfl | rfl <;> rfl

end Lobby

end ReconcileLoop
