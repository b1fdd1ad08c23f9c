import ReconcileLoop.App.Templates
import ReconcileLoop.Ingress.Template
import ReconcileLoop.Proofs.Cache.Ingest
import ReconcileLoop.Proofs.Cache.Replay
import ReconcileLoop.Proofs.Hands
import ReconcileLoop.Route

namespace ReconcileLoop

/-! # No change of a primary is missed

The task of a cache publishes batches and hands their notifications on, the router turns them into
keys, and workers look the keys up: each in atomic steps, in any order. `Dispatch` is the state of
the parts that take part in this. The invariant `Dispatch.Told` is about the objects that the
router has been told of so far, which the notifications still to come lead from to the published
view: each of them is covered by work to do, or by a look that found nothing to be done differently.
-/

/-- The steps of the cache of the primaries, of the router and of the workers work on this. -/
structure Dispatch (α : Type) where
  ingest : Ingest α
  queue : WorkQueue Key
  workers : List Worker
  /-- What a pass found when one last looked a key up. -/
  found : Key → Option α := fun _ => none

/-- Updates that cannot matter one by one cannot matter together either. -/
class Settled (α : Type) {σ : outParam Type} [Primary α σ] : Prop where
  refl (object : α) : Primary.affectsDependents object object = false
  trans (first second third : α) (before : Primary.affectsDependents first second = false)
    (after : Primary.affectsDependents second third = false) :
    Primary.affectsDependents first third = false

instance : Settled Service where
  refl service := by simp [Primary.affectsDependents]
  trans first second third before after := by
    simp only [Primary.affectsDependents, Bool.or_eq_false_iff, decide_eq_false_iff_not,
      Decidable.not_not] at before after ⊢
    exact ⟨before.1.trans after.1, before.2.trans after.2⟩

instance : Settled App where
  refl app := by simp [Primary.affectsDependents]
  trans first second third before after := by
    simp only [Primary.affectsDependents, Bool.or_eq_false_iff, decide_eq_false_iff_not,
      Decidable.not_not] at before after ⊢
    exact ⟨before.1.trans after.1, before.2.trans after.2⟩

namespace Dispatch

variable {α σ : Type}

def start (capacity : Nat) (limiter : Limiter Key) (workers : Nat) : Dispatch α :=
  { ingest := .ofCapacity capacity
    queue := { limiter }
    workers := List.replicate workers (.getting .fresh) }

def Waits (dispatch : Dispatch α) (key : Key) : Prop := key ∈ dispatch.queue.shared.queue.dirty

def Unread (dispatch : Dispatch α) (key : Key) : Prop :=
  ∃ place : Nat, dispatch.workers[place]?.bind Worker.unread? = some key

/-- A pass for a key looks for the primary in the published view. -/
def look (dispatch : Dispatch α) (key : Key) : Key → Option α :=
  fun other => if other = key then dispatch.ingest.snapshot.get? key else dispatch.found other

variable [Primary α σ]

/-- The atomic steps of the tasks, in any order, while nobody shuts the queue down. -/
inductive Step (dispatch : Dispatch α) : Dispatch α → Prop where
  | deliver (channel : Channel (Delta α)) :
      Step dispatch { dispatch with ingest := { dispatch.ingest with channel } }
  | publish (batch : List (Delta α)) (idle : dispatch.ingest.stage = .idle) :
      Step dispatch { dispatch with ingest := dispatch.ingest.publish batch }
  | ingest (after : Ingest α) (moved : dispatch.ingest.step? = some (after, none)) :
      Step dispatch { dispatch with ingest := after }
  | route (after : Ingest α) (note : Notification α)
      (moved : dispatch.ingest.step? = some (after, some note)) :
      Step dispatch
        { dispatch with ingest := after, queue := Route.route dispatch.queue (.primary note) }
  | get (place : Nat) (getter next : Queue.Getter Key) (shared : Queue.Shared Key)
      (there : dispatch.workers[place]? = some (.getting getter))
      (moved : getter.step? dispatch.queue.shared = some (shared, next)) :
      Step dispatch
        { dispatch with
          queue := { dispatch.queue with shared }
          workers := dispatch.workers.set place (.getting next) }
  | begin (place : Nat) (key : Key)
      (there : dispatch.workers[place]? = some (.getting (.finished (some key)))) :
      Step dispatch { dispatch with workers := dispatch.workers.set place (.holding key) }
  /-- A pass looks its key up; how it ends does not matter. -/
  | read (place : Nat) (key : Key) (result : Except ReconcileError Unit)
      (there : dispatch.workers[place]? = some (.holding key)) :
      Step dispatch
        { dispatch with
          found := dispatch.look key
          workers := dispatch.workers.set place (.settling key result) }
  | done (place : Nat) (key : Key) (result : Except ReconcileError Unit)
      (there : dispatch.workers[place]? = some (.settling key result)) :
      Step dispatch
        { dispatch with
          queue := dispatch.queue.done key
          workers := dispatch.workers.set place (.getting .fresh) }
  /-- A key is added for another reason: a change of a dependent, a retry, a resync. -/
  | add (key : Key) : Step dispatch { dispatch with queue := dispatch.queue.add key }

inductive Reachable : Dispatch α → Prop where
  | start (capacity : Nat) (limiter : Limiter Key) (workers : Nat) :
      Reachable (start capacity limiter workers)
  | step {dispatch after : Dispatch α} (earlier : Reachable dispatch)
      (stepped : Step dispatch after) : Reachable after

/-- Whether the last look for a key found an object that this one need not be told apart from. -/
def LookedUp (dispatch : Dispatch α) (key : Key) (object : α) : Prop :=
  ∃ read, dispatch.found key = some read ∧ Primary.affectsDependents read object = false

def Covers (dispatch : Dispatch α) (key : Key) (object : α) : Prop :=
  dispatch.Waits key ∨ dispatch.Unread key ∨ dispatch.LookedUp key object

/-- Every object of the published view is covered, or somebody will be told about it. -/
def Accounted (dispatch : Dispatch α) : Prop :=
  ∀ key primary, dispatch.ingest.snapshot.get? key = some primary →
    dispatch.Waits key ∨ dispatch.Unread key ∨
      (∃ note ∈ dispatch.ingest.pending, note.IsAbout key) ∨ dispatch.LookedUp key primary

/-- The notifications still to come lead from `told`, whose objects the router knows, to the
published view. Under each key either the one object is covered or the other: the latter once the
key was looked up since the view was published. -/
structure Told (dispatch : Dispatch α) (told : Std.ExtTreeMap Key α) : Prop where
  up : dispatch.queue.shared.queue.down = false
  published : dispatch.ingest.index.items = dispatch.ingest.snapshot.items
  keyed : Keyed dispatch.ingest.snapshot.items
  replay : Replay told dispatch.ingest.pending dispatch.ingest.snapshot.items
  covered (key : Key) :
    (∀ object, told[key]? = some object → dispatch.Covers key object) ∨
      ∀ object, dispatch.ingest.snapshot.items[key]? = some object → dispatch.Covers key object

namespace Told

variable {dispatch after : Dispatch α} {told : Std.ExtTreeMap Key α}

theorem frame (accounts : dispatch.Told told) (up : after.queue.shared.queue.down = false)
    (index : after.ingest.index = dispatch.ingest.index)
    (snapshot : after.ingest.snapshot = dispatch.ingest.snapshot)
    (pending : after.ingest.pending = dispatch.ingest.pending)
    (kept : ∀ key, (∀ object, dispatch.Covers key object → after.Covers key object) ∨
      ∀ object, dispatch.ingest.snapshot.items[key]? = some object → after.Covers key object) :
    after.Told told where
  up := up
  published := by rw [index, snapshot]; exact accounts.published
  keyed := by rw [snapshot]; exact accounts.keyed
  replay := by rw [pending, snapshot]; exact accounts.replay
  covered := by
    intro key
    rw [snapshot]
    rcases kept key with kept | fresh
    · rcases accounts.covered key with known | shown
      · exact .inl fun object present => kept object (known object present)
      · exact .inr fun object present => kept object (shown object present)
    · exact .inr fresh

theorem publish (accounts : dispatch.Told told) (batch : List (Delta α))
    (idle : dispatch.ingest.stage = .idle) :
    Told { dispatch with ingest := dispatch.ingest.publish batch }
      dispatch.ingest.snapshot.items where
  up := accounts.up
  published := rfl
  keyed := by
    have start : Keyed dispatch.ingest.index.items := accounts.published ▸ accounts.keyed
    exact (dispatch.ingest.index.apply_replay batch start).keyed start
  replay := by
    have start : Keyed dispatch.ingest.index.items := accounts.published ▸ accounts.keyed
    rw [← accounts.published]
    exact dispatch.ingest.index.apply_replay batch start
  covered := by
    intro key
    refine .inl fun object present => ?_
    have finished : Replay told [] dispatch.ingest.snapshot.items := by
      simpa [Ingest.pending, idle] using accounts.replay
    have same : told = dispatch.ingest.snapshot.items := by cases finished; rfl
    rcases accounts.covered key with known | shown
    · exact known object (same ▸ present)
    · exact shown object present

end Told

theorem Covers.route {dispatch : Dispatch α} {key : Key} {object : α}
    (covers : dispatch.Covers key object) (ingest : Ingest α) (signal : Signal α) :
    Covers { dispatch with ingest, queue := Route.route dispatch.queue signal } key object := by
  rcases covers with waits | unread | looked
  · refine .inl ?_
    unfold Waits Route.route
    cases Route.key? signal with
    | none => exact waits
    | some added => exact Queue.mem_dirty_add_of_mem waits added
  · exact .inr (.inl unread)
  · exact .inr (.inr looked)

theorem covers_of_key? {dispatch : Dispatch α} (up : dispatch.queue.shared.queue.down = false)
    {signal : Signal α} {key : Key} (routed : Route.key? signal = some key) (ingest : Ingest α)
    (object : α) :
    Covers { dispatch with ingest, queue := Route.route dispatch.queue signal } key object := by
  refine .inl ?_
  unfold Waits Route.route
  rw [routed]
  exact (Queue.mem_dirty_add up).mpr (.inl rfl)

theorem down_route (queue : WorkQueue Key) (signal : Signal α) :
    (Route.route queue signal).shared.queue.down = queue.shared.queue.down := by
  unfold Route.route
  cases Route.key? signal with
  | none => rfl
  | some added => exact Queue.down_add _ added

/-- What a notification makes of the objects that the router knows is covered, if what it knew was:
a change that matters is work, and any other does not matter to whoever looked before. -/
theorem Told.route [Settled α] {dispatch : Dispatch α} {told : Std.ExtTreeMap Key α}
    {ingest : Ingest α} {note : Notification α} (accounts : dispatch.Told told)
    (moved : dispatch.ingest.step? = some (ingest, some note)) :
    ∃ known, Told { dispatch with
      ingest, queue := Route.route dispatch.queue (.primary note) } known := by
  obtain ⟨_, _, handed, _⟩ | ⟨index, snapshot, pending⟩ := Ingest.step?_eq_some moved
  · contradiction
  have up := (down_route dispatch.queue (.primary note)).trans accounts.up
  have published : ingest.index.items = ingest.snapshot.items := by
    rw [index, snapshot]; exact accounts.published
  have keyed : Keyed ingest.snapshot.items := by rw [snapshot]; exact accounts.keyed
  have replay := accounts.replay
  rw [pending, ← snapshot] at replay
  -- The keys that the notification is not about, and those looked up since the view was published.
  have others (known : Std.ExtTreeMap Key α) (key : Key) (same : known[key]? = told[key]?) :
      (∀ object, known[key]? = some object →
        Covers { dispatch with ingest, queue := Route.route dispatch.queue (.primary note) }
          key object) ∨
      ∀ object, ingest.snapshot.items[key]? = some object →
        Covers { dispatch with ingest, queue := Route.route dispatch.queue (.primary note) }
          key object := by
    rcases accounts.covered key with covered | shown
    · exact .inl fun object present => (covered object (same ▸ present)).route ingest _
    · exact .inr fun object present => (shown object (snapshot ▸ present)).route ingest _
  cases replay with
  | @added _ own object _ _ named absent later =>
      refine ⟨told.insert own object, up, published, keyed, later, fun key => ?_⟩
      by_cases same : own = key
      · subst same
        exact .inl fun other _ =>
          covers_of_key? accounts.up (by simp [Route.key?, named, Except.toOption]) ingest other
      · exact others _ key (by simp [Std.ExtTreeMap.getElem?_insert, same])
  | @updated _ own old new _ _ named present later =>
      refine ⟨told.insert own new, up, published, keyed, later, fun key => ?_⟩
      by_cases same : own = key
      · subst same
        cases matters : Primary.affectsDependents old new with
        | true =>
            exact .inl fun other _ =>
              covers_of_key? accounts.up
                (by simp [Route.key?, matters, named, Except.toOption]) ingest other
        | false =>
            rcases accounts.covered own with covered | shown
            · refine .inl fun object held => ?_
              have this_one : new = object := by simpa using held
              subst this_one
              have still : dispatch.Covers own new := by
                rcases covered old present with waits | unread | ⟨read, found, equal⟩
                · exact .inl waits
                · exact .inr (.inl unread)
                · exact .inr (.inr ⟨read, found, Settled.trans read old new equal matters⟩)
              exact still.route ingest _
            · exact .inr fun object held => (shown object (snapshot ▸ held)).route ingest _
      · exact others _ key (by simp [Std.ExtTreeMap.getElem?_insert, same])
  | @deleted _ own object _ _ named later =>
      refine ⟨told.erase own, up, published, keyed, later, fun key => ?_⟩
      by_cases same : own = key
      · subst same
        exact .inl fun other held => by simp at held
      · exact others _ key (by simp [Std.ExtTreeMap.getElem?_erase, same])

theorem unread_of_set {dispatch : Dispatch α} {place : Nat} {old : Worker} {key : Key}
    (there : dispatch.workers[place]? = some old) (new : Worker)
    (others : old.unread? = some key → new.unread? = some key) (unread : dispatch.Unread key) :
    ∃ other : Nat, (dispatch.workers.set place new)[other]?.bind Worker.unread? = some key := by
  obtain ⟨other, has⟩ := unread
  refine ⟨other, ?_⟩
  rw [bind_getElem?_set there]
  by_cases same : other = place
  · subst same
    rw [there] at has
    rw [if_pos rfl]
    exact others has
  · rw [if_neg same]
    exact has

theorem unread_set {dispatch : Dispatch α} {place : Nat} {old new : Worker} {key : Key}
    (there : dispatch.workers[place]? = some old) (unread : new.unread? = some key) :
    ∃ other : Nat, (dispatch.workers.set place new)[other]?.bind Worker.unread? = some key :=
  ⟨place, by rw [bind_getElem?_set there, if_pos rfl]; exact unread⟩

theorem Covers.get {dispatch : Dispatch α} {key : Key} {object : α} {place : Nat}
    {getter next : Queue.Getter Key} {shared : Queue.Shared Key}
    (covers : dispatch.Covers key object)
    (there : dispatch.workers[place]? = some (.getting getter))
    (moved : getter.step? dispatch.queue.shared = some (shared, next)) :
    Covers { dispatch with
      queue := { dispatch.queue with shared }
      workers := dispatch.workers.set place (.getting next) } key object := by
  have idle : Worker.unread? (.getting getter) ≠ some key := by
    rw [Worker.unread?_of_step? moved]
    exact Option.some_ne_none key |>.symm
  rcases covers with waits | unread | looked
  · rcases Queue.Getter.step?_queue moved with ⟨item, rfl, taken⟩ | ⟨same, _⟩
    · obtain ⟨_, _, dirty, _⟩ := Queue.take?_eq_some taken
      by_cases this_one : item = key
      · subst this_one
        exact .inr (.inl (unread_set there rfl))
      · refine .inl ?_
        unfold Waits
        rw [dirty]
        exact (List.mem_erase_of_ne (Ne.symm this_one)).mpr waits
    · refine .inl ?_
      unfold Waits
      rw [same]
      exact waits
  · exact .inr (.inl (unread_of_set there _ (fun has => absurd has idle) unread))
  · exact .inr (.inr looked)

theorem Told.step [Settled α] {dispatch after : Dispatch α} {told : Std.ExtTreeMap Key α}
    (accounts : dispatch.Told told) (stepped : Step dispatch after) :
    ∃ known, after.Told known := by
  cases stepped with
  | deliver channel =>
      exact ⟨told, accounts.frame accounts.up rfl rfl rfl fun key =>
        .inl fun object covers => covers⟩
  | publish batch idle => exact ⟨_, accounts.publish batch idle⟩
  | ingest ingest moved =>
      obtain ⟨batch, idle, _, rfl⟩ | ⟨index, snapshot, pending⟩ := Ingest.step?_eq_some moved
      · exact ⟨_, accounts.publish batch idle⟩
      · exact ⟨told, accounts.frame accounts.up index snapshot pending.symm fun key =>
          .inl fun object covers => covers⟩
  | route ingest note moved => exact accounts.route moved
  | get place getter next shared there moved =>
      have up : shared.queue.down = false := by
        rcases Queue.Getter.step?_queue moved with ⟨item, _, taken⟩ | ⟨same, _⟩
        · exact Queue.down_of_take? taken
        · exact same ▸ accounts.up
      exact ⟨told, accounts.frame up rfl rfl rfl fun key =>
        .inl fun object covers => covers.get there moved⟩
  | begin place key there =>
      refine ⟨told, accounts.frame accounts.up rfl rfl rfl fun other =>
        .inl fun object covers => ?_⟩
      rcases covers with waits | unread | looked
      · exact .inl waits
      · exact .inr (.inl (unread_of_set there _ (fun has => has) unread))
      · exact .inr (.inr looked)
  | read place key result there =>
      refine ⟨told, accounts.frame accounts.up rfl rfl rfl fun other => ?_⟩
      by_cases same : other = key
      · subst same
        refine .inr fun object present => .inr (.inr ⟨object, ?_, Settled.refl object⟩)
        simpa [look, Snapshot.get?] using present
      · refine .inl fun object covers => ?_
        rcases covers with waits | unread | ⟨read, found, equal⟩
        · exact .inl waits
        · refine .inr (.inl (unread_of_set there _ (fun has => ?_) unread))
          exact absurd (Option.some.inj has).symm same
        · exact .inr (.inr ⟨read, by simpa [look, same] using found, equal⟩)
  | done place key result there =>
      have up : (dispatch.queue.done key).shared.queue.down = false :=
        (Queue.down_done _ key).trans accounts.up
      refine ⟨told, accounts.frame up rfl rfl rfl fun other => .inl fun object covers => ?_⟩
      rcases covers with waits | unread | looked
      · refine .inl ?_
        have dirty := Queue.dirty_done dispatch.queue.shared.queue key
        unfold Waits
        rw [WorkQueue.done, Queue.Shared.queue_done, dirty]
        exact waits
      · exact .inr (.inl (unread_of_set there _ (fun has => absurd has (by simp [Worker.unread?]))
          unread))
      · exact .inr (.inr looked)
  | add key =>
      have up : (dispatch.queue.add key).shared.queue.down = false :=
        (Queue.down_add _ key).trans accounts.up
      refine ⟨told, accounts.frame up rfl rfl rfl fun other => .inl fun object covers => ?_⟩
      rcases covers with waits | unread | looked
      · exact .inl (Queue.mem_dirty_add_of_mem waits key)
      · exact .inr (.inl unread)
      · exact .inr (.inr looked)

theorem told_start (capacity : Nat) (limiter : Limiter Key) (workers : Nat) :
    (start capacity limiter workers : Dispatch α).Told ∅ where
  up := rfl
  published := rfl
  keyed := Keyed.empty
  replay := .done
  covered := fun key => .inl fun object present => by simp at present

theorem told_of_reachable [Settled α] {dispatch : Dispatch α} (reachable : Reachable dispatch) :
    ∃ told, dispatch.Told told := by
  induction reachable with
  | start capacity limiter workers => exact ⟨∅, told_start capacity limiter workers⟩
  | step earlier stepped ih =>
      obtain ⟨told, accounts⟩ := ih
      exact accounts.step stepped

theorem Told.accounted {dispatch : Dispatch α} {told : Std.ExtTreeMap Key α}
    (accounts : dispatch.Told told) : dispatch.Accounted := by
  intro key primary published
  by_cases later : ∃ note ∈ dispatch.ingest.pending, note.IsAbout key
  · exact .inr (.inr (.inl later))
  · have silent : ∀ note ∈ dispatch.ingest.pending, ¬note.IsAbout key :=
      fun note pending about => later ⟨note, pending, about⟩
    have same := accounts.replay.getElem?_eq silent
    have covers : dispatch.Covers key primary := by
      rcases accounts.covered key with known | shown
      · exact known primary (same ▸ published)
      · exact shown primary published
    rcases covers with waits | unread | looked
    · exact .inl waits
    · exact .inr (.inl unread)
    · exact .inr (.inr (.inr looked))

/-- Whatever the order of the steps, no change of a service or an app is missed: of every primary
in the published view, its key waits, or is held by a worker that has yet to look it up, or a
notification about it is still to come, or the last look for it found an object that this one need
not be told apart from. -/
theorem accounted_of_reachable :
    (∀ dispatch : Dispatch Service, Reachable dispatch → dispatch.Accounted) ∧
      ∀ dispatch : Dispatch App, Reachable dispatch → dispatch.Accounted := by
  refine ⟨fun dispatch reachable => ?_, fun dispatch reachable => ?_⟩
  · obtain ⟨told, accounts⟩ := told_of_reachable reachable
    exact accounts.accounted
  · obtain ⟨told, accounts⟩ := told_of_reachable reachable
    exact accounts.accounted

/-- A service of which nothing but the name is known, and its key. -/
def bareService : Service where
  metadata := { name := some "web", space := some "default" }

def bareKey : Key := ⟨some "default", "web"⟩

/-- The service on its way from the published view to the end of the first pass for it. Each time it
is for another reason that it is not missed, and the last reason is that it was looked up. -/
theorem oneService_accounted :
    ∃ published routed taken finished : Dispatch Service,
      (Reachable published ∧ ∃ note ∈ published.ingest.pending, note.IsAbout bareKey) ∧
      (Reachable routed ∧ routed.Waits bareKey ∧ routed.ingest.pending = []) ∧
      (Reachable taken ∧ taken.Unread bareKey ∧ ¬taken.Waits bareKey) ∧
      Reachable finished ∧ finished.ingest.snapshot.get? bareKey = some bareService ∧
        ¬finished.Waits bareKey ∧ finished.workers = [.getting .fresh] ∧
        finished.LookedUp bareKey bareService := by
  have published : Reachable _ :=
    .step (.start 1 (.longest []) 1) (.publish [.applied bareService] rfl)
  have routed : Reachable _ := .step published (.route _ _ rfl)
  have joined : Reachable _ := .step routed (.get 0 _ _ _ rfl rfl)
  have taken : Reachable _ := .step joined (.get 0 _ _ _ rfl rfl)
  have holding : Reachable _ := .step taken (.begin 0 bareKey rfl)
  have read : Reachable _ := .step holding (.read 0 bareKey (.ok ()) rfl)
  have finished : Reachable _ := .step read (.done 0 bareKey (.ok ()) rfl)
  refine ⟨_, _, _, _, ⟨published, _, List.mem_singleton_self _, rfl⟩,
    ⟨routed, List.mem_singleton_self _, rfl⟩, ⟨taken, ⟨0, rfl⟩, List.not_mem_nil⟩, finished, rfl,
    List.not_mem_nil, rfl, ?_⟩
  obtain waits | ⟨place, unread⟩ | ⟨note, pending, _⟩ | looked :=
    accounted_of_reachable.1 _ finished bareKey bareService rfl
  · exact absurd waits List.not_mem_nil
  · cases place <;> contradiction
  · exact absurd pending List.not_mem_nil
  · exact looked

end Dispatch

end ReconcileLoop
