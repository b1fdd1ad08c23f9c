import ReconcileLoop.Proofs.Store.Told
import ReconcileLoop.Store.Feed

namespace ReconcileLoop

/-! # What a watch shows of a store

A watch is read in steps while the store goes on changing. What was not read yet, of the last
listing and of the feed, is pending: if a cache that took in what was read took in all of this too,
it would hold the objects of the store (`Viewing.Sound`). That stays so when the watch has fallen
behind and lists again, since a listing leaves nothing of what the cache held before.
-/

variable {α : Type}

namespace Store

/-- What somebody does to a store, whether it succeeds or not. -/
inductive Change (α : Type) where
  | put (object : α)
  | create (object : α)
  | updateStatus (object : α)
  | delete (key : Key)
  | remove (key : Key)
  | fail (op : Op) (times : Nat)

variable [Resource α]

def change (store : Store α) : Change α → Store α
  | .put object => (store.put object).2
  | .create object => (store.create object).2
  | .updateStatus object => (store.updateStatus object).2
  | .delete key => (store.delete key).2
  | .remove key => (store.remove key).2
  | .fail op times => store.fail op times

theorem change_shift [LawfulResource α] (store : Store α) (keyed : Keyed store.objects)
    (change : Change α) : store.Shift (store.change change) := by
  cases change with
  | put object => exact store.put_shift object
  | create object => exact store.create_shift object
  | updateStatus object => exact store.updateStatus_shift object keyed
  | delete key => exact store.delete_shift key
  | remove key => exact store.remove_shift key
  | fail op times => exact .still rfl rfl

end Store

namespace Delta

def isChange : Delta α → Bool
  | .applied _ => true
  | .deleted _ => true
  | _ => false

/-- Whether a listing is open after some deltas, if it was before. -/
def opened (before : Bool) : List (Delta α) → Bool
  | [] => before
  | .init :: rest => opened true rest
  | .initDone :: rest => opened false rest
  | _ :: rest => opened before rest

theorem opened_append (before : Bool) (first second : List (Delta α)) :
    opened before (first ++ second) = opened (opened before first) second := by
  induction first generalizing before with
  | nil => rfl
  | cons delta rest ih => cases delta <;> exact ih _

theorem opened_of_not_mem {deltas : List (Delta α)} (unended : .initDone ∉ deltas) :
    opened true deltas = true := by
  induction deltas with
  | nil => rfl
  | cons delta rest ih =>
      have later := ih fun member => unended (List.mem_cons_of_mem _ member)
      cases delta with
      | initDone => exact absurd (List.mem_cons_self ..) unended
      | applied object => exact later
      | deleted object => exact later
      | init => exact later
      | initApplied object => exact later

theorem opened_change (before : Bool) {delta : Delta α} (single : delta.isChange = true) :
    opened before [delta] = before := by
  cases delta <;> first | rfl | contradiction

end Delta

/-- A watch of a store, with what happened since it began. -/
structure Viewing (α : Type) where
  store : Store α
  watch : StoreWatch α
  read : List (Delta α) := []
  /-- The states of the store, the present one first. -/
  states : List (Store α)

namespace Viewing

def start (store : Store α) : Viewing α := { store, watch := .start store, states := [store] }

/-- What is still to be read, as far as the watch does not list again. -/
def pending (viewing : Viewing α) : List (Delta α) :=
  viewing.watch.listing ++ viewing.store.feed.drop viewing.watch.seen

def Held (viewing : Viewing α) (key : Key) (object : α) : Prop :=
  ∃ store ∈ viewing.states, store.objects[key]? = some object

theorem next?_cases {viewing : Viewing α} {delta : Delta α} {watch : StoreWatch α}
    (next : viewing.watch.next? viewing.store = some (delta, watch)) :
    (viewing.pending = delta :: watch.listing ++ viewing.store.feed.drop watch.seen ∧
      (viewing.watch.listing = delta :: watch.listing ∧ watch.seen = viewing.watch.seen ∨
        viewing.watch.listing = [] ∧ watch.listing = [] ∧
          viewing.store.feed[viewing.watch.seen]? = some delta ∧
          watch.seen = viewing.watch.seen + 1)) ∨
    viewing.watch.listing = [] ∧ delta = .init ∧
      .init :: watch.listing = Delta.listing viewing.store.list ∧
      watch.seen = viewing.store.feed.length := by
  unfold StoreWatch.next? at next
  split at next
  · next first rest listing =>
      cases next
      exact .inl ⟨by rw [pending, listing], .inl ⟨listing, rfl⟩⟩
  · next listing =>
      split at next
      · cases next
        exact .inr ⟨listing, rfl, rfl, rfl⟩
      · obtain ⟨found, there, same⟩ := Option.map_eq_some_iff.mp next
        cases same
        refine .inl ⟨?_, .inr ⟨listing, listing, there, rfl⟩⟩
        obtain ⟨inside, here⟩ := List.getElem?_eq_some_iff.mp there
        rw [pending, listing, List.nil_append, List.drop_eq_getElem_cons inside, here]
        rfl

/-- A watch hands out its listing to the end before it goes on with the feed. -/
inductive Framed : Bool → List (Delta α) → Prop where
  | following : Framed false []
  | starting (objects : List α) : Framed false (Delta.listing objects)
  | listing (objects : List α) : Framed true (objects.map .initApplied ++ [.initDone])

theorem Framed.uncons {opened : Bool} {delta : Delta α} {rest : List (Delta α)}
    (framed : Framed opened (delta :: rest)) :
    Framed (Delta.opened opened [delta]) rest ∧ delta.isChange = false := by
  generalize whole : delta :: rest = listing at framed
  cases framed with
  | following => contradiction
  | starting objects =>
      cases whole
      exact ⟨.listing objects, rfl⟩
  | listing objects =>
      cases objects with
      | nil =>
          cases whole
          exact ⟨.following, rfl⟩
      | cons object others =>
          cases whole
          exact ⟨.listing others, rfl⟩

theorem Framed.closed {opened : Bool} (framed : Framed opened ([] : List (Delta α))) :
    opened = false := by
  generalize whole : ([] : List (Delta α)) = listing at framed
  cases framed with
  | following => rfl
  | starting objects => contradiction
  | listing objects => simp at whole

variable [Resource α]

/-- Somebody changes the store, or the next delta of the watch is read. -/
inductive Step (viewing : Viewing α) : Viewing α → Prop where
  | change (change : Store.Change α) :
      Step viewing
        { viewing with
          store := viewing.store.change change
          states := viewing.store.change change :: viewing.states }
  | read (delta : Delta α) (watch : StoreWatch α)
      (next : viewing.watch.next? viewing.store = some (delta, watch)) :
      Step viewing { viewing with watch, read := viewing.read ++ [delta] }

/-- A watch may begin at any time, on a store of any capacity. -/
inductive Reachable : Viewing α → Prop where
  | start (feedCapacity : Nat) (uids : Nat → String) (changes : List (Store.Change α)) :
      Reachable (start (changes.foldl Store.change { feedCapacity, uids }))
  | step {viewing after : Viewing α} (earlier : Reachable viewing) (stepped : Step viewing after) :
      Reachable after

def items (viewing : Viewing α) : Std.ExtTreeMap Key α :=
  (({} : Index α).steps viewing.read).1.items

structure Sound (viewing : Viewing α) : Prop where
  keyed : Keyed viewing.store.objects
  changes : ∀ delta ∈ viewing.store.feed, delta.isChange = true
  present : viewing.store ∈ viewing.states
  within : viewing.watch.seen ≤ viewing.store.feed.length
  /-- With what is pending the cache would be up to date. -/
  ahead : ((({} : Index α).steps viewing.read).1.steps viewing.pending).1.items =
    viewing.store.objects
  cached (key : Key) (object : α) (held : viewing.items[key]? = some object) :
    viewing.Held key object
  shown (delta : Delta α) (member : delta ∈ viewing.pending) (object : α)
    (shows : delta.shown? = some object) (key : Key) (own : Resource.key object = .ok key) :
    viewing.Held key object
  framed : Framed (Delta.opened false viewing.read) viewing.watch.listing
  apart (before after : List (Delta α)) (delta : Delta α)
    (split : viewing.read = before ++ delta :: after) (opened : Delta.opened false before = true) :
    delta.isChange = false

theorem changes_shift {before after : Store α} (shift : before.Shift after)
    (changes : ∀ delta ∈ before.feed, delta.isChange = true) :
    ∀ delta ∈ after.feed, delta.isChange = true := by
  intro delta member
  cases shift with
  | still _ feed => exact changes delta (feed ▸ member)
  | written key object _ _ feed =>
      rcases List.mem_append.mp (feed ▸ member) with old | new
      · exact changes delta old
      · rw [List.mem_singleton.mp new]
        rfl
  | removed key gone _ _ feed =>
      rcases List.mem_append.mp (feed ▸ member) with old | new
      · exact changes delta old
      · rw [List.mem_singleton.mp new]
        rfl

theorem held_of_listed {viewing : Viewing α} (keyed : Keyed viewing.store.objects)
    (present : viewing.store ∈ viewing.states) {delta : Delta α}
    (member : delta ∈ Delta.listing viewing.store.list) {object : α}
    (shows : delta.shown? = some object) {key : Key} (own : Resource.key object = .ok key) :
    viewing.Held key object := by
  simp only [Delta.listing, List.cons_append, List.mem_cons, List.mem_append, List.mem_map,
    List.not_mem_nil, or_false] at member
  rcases member with rfl | ⟨listed, inside, rfl⟩ | rfl
  · contradiction
  · cases shows
    obtain ⟨⟨place, held⟩, entry, rfl⟩ := List.mem_map.mp inside
    have there := Std.ExtTreeMap.mem_toList_iff_getElem?_eq_some.mp entry
    have same : place = key := by
      have placed := keyed place held there
      rw [own] at placed
      exact (Except.ok.inj placed).symm
    exact ⟨viewing.store, present, same ▸ there⟩
  · contradiction

theorem sound_start {store : Store α} (keyed : Keyed store.objects)
    (changes : ∀ delta ∈ store.feed, delta.isChange = true) : (start store).Sound := by
  have pending : (start store).pending = Delta.listing store.list := by
    have nothing : store.feed.drop store.feed.length = [] := List.drop_length
    simp only [Viewing.pending, start, StoreWatch.start, nothing, List.append_nil]
    rfl
  refine ⟨keyed, changes, List.mem_singleton.mpr rfl, Nat.le_refl _, ?_, ?_, ?_, ?_, ?_⟩
  · rw [pending]
    exact Index.items_steps_listing _ keyed
  · intro key object held
    simp [items, start, Index.steps] at held
  · intro delta member object shows key own
    rw [pending] at member
    exact @held_of_listed _ _ (start store) keyed (List.mem_singleton.mpr rfl) _ member _ shows _ own
  · exact .starting store.list
  · intro before after delta split _
    simp [start] at split

/-- Whatever was told of a change, and shows an object, shows one that is in the store now. -/
theorem held_of_told {before after : Store α} (shift : before.Shift after) {told : List (Delta α)}
    (feed : after.feed = before.feed ++ told) {delta : Delta α} (member : delta ∈ told) {object : α}
    (shows : delta.shown? = some object) {key : Key} (own : Resource.key object = .ok key) :
    after.objects[key]? = some object := by
  cases shift with
  | still _ same =>
      have nothing : told = [] := by
        rw [feed] at same
        exact List.append_right_eq_self.mp same
      rw [nothing] at member
      contradiction
  | written place made also objects written =>
      have only : told = [.applied made] := List.append_cancel_left (feed.symm.trans written)
      rw [only, List.mem_singleton] at member
      subst member
      cases shows
      obtain rfl : place = key := Except.ok.inj (also.symm.trans own)
      rw [objects]
      exact Std.ExtTreeMap.getElem?_insert_self
  | removed place gone _ _ removed =>
      have only : told = [.deleted gone] := List.append_cancel_left (feed.symm.trans removed)
      rw [only, List.mem_singleton] at member
      subst member
      contradiction

namespace Sound

variable {viewing : Viewing α}

theorem change [LawfulResource α] (sound : viewing.Sound) (change : Store.Change α) :
    Sound { viewing with
      store := viewing.store.change change
      states := viewing.store.change change :: viewing.states } := by
  have shift := viewing.store.change_shift sound.keyed change
  obtain ⟨told, feed, leads⟩ := shift.tells sound.keyed
  have pending : viewing.watch.listing ++ (viewing.store.change change).feed.drop viewing.watch.seen =
      viewing.pending ++ told := by
    rw [feed, List.drop_append_of_le_length sound.within, Viewing.pending, List.append_assoc]
  refine ⟨shift.keyed sound.keyed, changes_shift shift sound.changes, List.mem_cons_self .., ?_, ?_,
    ?_, ?_, sound.framed, sound.apart⟩
  · have grown : (viewing.store.change change).feed.length =
        viewing.store.feed.length + told.length := by rw [feed, List.length_append]
    have within := sound.within
    simp only [grown]
    omega
  · change ((Index.steps _ (viewing.watch.listing ++ _)).1).items = _
    rw [pending, Index.steps_append]
    exact leads _ sound.ahead
  · intro key object held
    obtain ⟨store, member, there⟩ := sound.cached key object held
    exact ⟨store, List.mem_cons_of_mem _ member, there⟩
  · intro delta member object shows key own
    have inside : delta ∈ viewing.pending ++ told := by
      rw [← pending]
      exact member
    rcases List.mem_append.mp inside with old | new
    · obtain ⟨store, past, there⟩ := sound.shown delta old object shows key own
      exact ⟨store, List.mem_cons_of_mem _ past, there⟩
    · exact ⟨_, List.mem_cons_self .., held_of_told shift feed new shows own⟩

/-! To read one delta more, from what is pending or at the start of another listing. -/

section

variable {delta : Delta α} {watch : StoreWatch α} (sound : viewing.Sound)
  (next : viewing.watch.next? viewing.store = some (delta, watch))

include sound next

theorem within_next : watch.seen ≤ viewing.store.feed.length := by
  have within := sound.within
  rcases next?_cases next with ⟨_, ⟨_, same⟩ | ⟨_, _, there, later⟩⟩ | ⟨_, _, _, all⟩
  · omega
  · have inside := (List.getElem?_eq_some_iff.mp there).1
    omega
  · omega

theorem ahead_next :
    ((({} : Index α).steps (viewing.read ++ [delta])).1.steps
      (watch.listing ++ viewing.store.feed.drop watch.seen)).1.items = viewing.store.objects := by
  have ahead := sound.ahead
  rw [Index.steps_append _ viewing.read [delta]]
  rcases next?_cases next with ⟨pending, _⟩ | ⟨_, rfl, again, all⟩
  · rw [pending] at ahead
    exact ahead
  · -- A listing leaves the objects of the store, whatever the cache held.
    have listed := Index.items_steps_listing (({} : Index α).steps viewing.read).1 sound.keyed
    change ((Index.steps _ (Delta.listing viewing.store.list)).1).items = _ at listed
    rw [← again] at listed
    rw [all, List.drop_length, List.append_nil]
    exact listed

theorem held_next {object : α} (shows : delta.shown? = some object) {key : Key}
    (own : Resource.key object = .ok key) : viewing.Held key object := by
  rcases next?_cases next with ⟨pending, _⟩ | ⟨_, rfl, _, _⟩
  · exact sound.shown delta (pending ▸ List.mem_cons_self ..) object shows key own
  · contradiction

theorem cached_next (key : Key) (object : α)
    (held : (({} : Index α).steps (viewing.read ++ [delta])).1.items[key]? = some object) :
    viewing.Held key object := by
  rw [Index.steps_append] at held
  rcases Index.getElem?_step held with before | ⟨shows, own⟩
  · exact sound.cached key object before
  · exact sound.held_next next shows own

theorem shown_next (other : Delta α)
    (member : other ∈ watch.listing ++ viewing.store.feed.drop watch.seen) (object : α)
    (shows : other.shown? = some object) (key : Key) (own : Resource.key object = .ok key) :
    viewing.Held key object := by
  rcases next?_cases next with ⟨pending, _⟩ | ⟨_, _, again, all⟩
  · refine sound.shown other ?_ object shows key own
    rw [pending]
    exact List.mem_cons_of_mem _ member
  · have inside : other ∈ Delta.listing viewing.store.list := by
      rw [all, List.drop_length, List.append_nil] at member
      rw [← again]
      exact List.mem_cons_of_mem _ member
    exact held_of_listed sound.keyed sound.present inside shows own

/-- A delta of a listing is part of its frame, and one of the feed comes when no listing is open. -/
theorem framed_next :
    Framed (Delta.opened false (viewing.read ++ [delta])) watch.listing ∧
      (Delta.opened false viewing.read = true → delta.isChange = false) := by
  have framed := sound.framed
  rw [Delta.opened_append]
  rcases next?_cases next with
    ⟨_, ⟨listing, _⟩ | ⟨listing, rest, there, _⟩⟩ | ⟨listing, rfl, again, _⟩
  · rw [listing] at framed
    exact ⟨framed.uncons.1, fun _ => framed.uncons.2⟩
  · rw [listing] at framed
    have single := sound.changes delta (List.mem_of_getElem? there)
    rw [Delta.opened_change _ single, framed.closed, rest]
    exact ⟨.following, nofun⟩
  · rw [listing] at framed
    refine ⟨?_, fun _ => rfl⟩
    rw [(List.cons.inj again).2]
    exact .listing _

theorem apart_next (before after : List (Delta α)) (other : Delta α)
    (split : viewing.read ++ [delta] = before ++ other :: after)
    (opened : Delta.opened false before = true) : other.isChange = false := by
  rcases List.eq_nil_or_concat after with rfl | ⟨earlier, last, rfl⟩
  · obtain ⟨same, here⟩ := List.append_inj' split rfl
    cases here
    exact (sound.framed_next next).2 (same ▸ opened)
  · refine sound.apart before earlier other ?_ opened
    have whole : viewing.read ++ [delta] = (before ++ other :: earlier) ++ [last] := by
      simpa using split
    exact (List.append_inj' whole rfl).1

theorem read : Sound { viewing with watch, read := viewing.read ++ [delta] } where
  keyed := sound.keyed
  changes := sound.changes
  present := sound.present
  within := sound.within_next next
  ahead := sound.ahead_next next
  cached := sound.cached_next next
  shown := sound.shown_next next
  framed := (sound.framed_next next).1
  apart := sound.apart_next next

end

end Sound

theorem sound_of_reachable [LawfulResource α] {viewing : Viewing α} (reachable : Reachable viewing) :
    viewing.Sound := by
  induction reachable with
  | start feedCapacity uids changes =>
      have keyed_changes (store : Store α) (keyed : Keyed store.objects)
          (single : ∀ delta ∈ store.feed, delta.isChange = true) :
          Keyed (changes.foldl Store.change store).objects ∧
            ∀ delta ∈ (changes.foldl Store.change store).feed, delta.isChange = true := by
        induction changes generalizing store with
        | nil => exact ⟨keyed, single⟩
        | cons change rest ih =>
            have shift := store.change_shift keyed change
            exact ih _ (shift.keyed keyed) (changes_shift shift single)
      obtain ⟨keyed, single⟩ := keyed_changes { feedCapacity, uids } Keyed.empty (by simp)
      exact sound_start keyed single
  | step _ stepped sound =>
      cases stepped with
      | change change => exact sound.change change
      | read delta watch next => exact sound.read next

/-- A cache that takes in what a watch delivers, in batches of any size, holds only objects that the
store had under their keys at some time, and holds exactly the objects of the store whenever the
watch has nothing more to deliver. Within a listing no single change is delivered. -/
theorem faithful_of_reachable [LawfulResource α] {viewing : Viewing α}
    (reachable : Reachable viewing) (batches : List (List (Delta α)))
    (fed : batches.flatten = viewing.read) :
    (∀ (key : Key) (object : α), (({} : Index α).applyAll batches).items[key]? = some object →
      ∃ store ∈ viewing.states, store.objects[key]? = some object) ∧
    (viewing.watch.next? viewing.store = none →
      (({} : Index α).applyAll batches).items = viewing.store.objects) ∧
    ∀ (before between : List (Delta α)) (delta : Delta α) (after : List (Delta α)),
      viewing.read = before ++ .init :: between ++ delta :: after → .initDone ∉ between →
      delta.isChange = false := by
  have sound := sound_of_reachable reachable
  have items : (({} : Index α).applyAll batches).items = viewing.items := by
    rw [Index.applyAll_eq, fed]
    rfl
  refine ⟨fun key object held => ?_, fun finished => ?_, ?_⟩
  · rw [items] at held
    exact sound.cached key object held
  · have ahead := sound.ahead
    have nothing : viewing.pending = [] := by
      unfold StoreWatch.next? at finished
      split at finished
      · contradiction
      · next listing =>
          split at finished
          · contradiction
          · have past := List.getElem?_eq_none_iff.mp (Option.map_eq_none_iff.mp finished)
            rw [pending, listing, List.drop_eq_nil_of_le past, List.append_nil]
    rw [nothing] at ahead
    rw [items]
    exact ahead
  · intro before between delta after split unended
    refine sound.apart _ after delta split ?_
    rw [Delta.opened_append]
    exact Delta.opened_of_not_mem unended

def plain (name : String) : ConfigMap := { metadata := { name := some name, space := some "ns" } }

/-- A watch that is behind by more than its store keeps lists again, without what is gone. -/
theorem faithful_of_lag :
    ∃ viewing : Viewing ConfigMap, Reachable viewing ∧
      viewing.read.filter (· matches .init) = [.init, .init] ∧
      viewing.watch.next? viewing.store = none ∧
      (({} : Index ConfigMap).applyAll [viewing.read]).items = viewing.store.objects := by
  have begun : Reachable (α := ConfigMap) _ := .start 1 (Store.serialUid 0) [.put (plain "a")]
  have put : Reachable (α := ConfigMap) _ := .step begun (.change (.put (plain "b")))
  have behind : Reachable (α := ConfigMap) _ := .step put (.change (.remove ⟨some "ns", "a"⟩))
  have first : Reachable (α := ConfigMap) _ := .step behind (.read _ _ rfl)
  have second : Reachable (α := ConfigMap) _ := .step first (.read _ _ rfl)
  have third : Reachable (α := ConfigMap) _ := .step second (.read _ _ rfl)
  have again : Reachable (α := ConfigMap) _ := .step third (.read _ _ rfl)
  have listed : Reachable (α := ConfigMap) _ := .step again (.read _ _ rfl)
  have done : Reachable (α := ConfigMap) _ := .step listed (.read _ _ rfl)
  have fed := faithful_of_reachable done [_] (List.append_nil _)
  exact ⟨_, done, rfl, rfl, fed.2.1 rfl⟩

end Viewing

end ReconcileLoop
