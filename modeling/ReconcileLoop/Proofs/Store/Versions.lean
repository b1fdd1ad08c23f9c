import ReconcileLoop.Proofs.Store.Calls
import Std.Data.String.ToNat

namespace ReconcileLoop

/-! # Versions are counted and never used twice

A store has a counter, and each write stamps its object with the next version. A write that succeeds
tells of the object that it stored and that it returns; what is refused changes nothing but the
count of the calls and the failures that are left (`Store.answer_effect`). So every object in a store
has a version of its own, and no later object has it again, over any sequence of demands
(`Archive.versioned_of_turns`).
-/

variable {α : Type}

namespace Store

/-- What can be asked of a store. -/
inductive Demand (α : Type) where
  | put (object : α)
  | create (object : α)
  | updateStatus (object : α)
  | get (key : Key)
  | delete (key : Key)
  | remove (key : Key)

/-- What a store answers. -/
inductive Outcome (α : Type) where
  | written (object : α)
  | found (object? : Option α)
  | deleted
  | removed (gone? : Option α)
  | refused (error : StoreError)

namespace Outcome

def ofResult {β : Type} (good : β → Outcome α) : Except StoreError β → Outcome α
  | .ok value => good value
  | .error error => refused error

/-- The object that a write returned. -/
def written? : Outcome α → Option α
  | written object => some object
  | _ => none

end Outcome

/-- Two states of a store that differ at most in the calls that were counted and the failures that
are left. -/
structure Same (before after : Store α) : Prop where
  objects : after.objects = before.objects
  version : after.version = before.version
  feed : after.feed = before.feed

/-- What a store loses with one object. -/
structure Lost (before : Store α) (key : Key) (gone : α) (after : Store α) : Prop where
  present : before.object? key = some gone
  objects : after.objects = before.objects.erase key
  version : after.version = before.version
  feed : after.feed = before.feed ++ [.deleted gone]

theorem begin_eq (store : Store α) (op : Op) :
    ∃ calls failures,
      store.begin op =
        (decide (store.failures.value op ≠ 0), { store with calls, failures }) := by
  refine ⟨store.calls.set op (store.calls.value op + 1), ?_⟩
  unfold begin
  by_cases calm : store.failures.value op = 0
  · exact ⟨store.failures, by simp [calm]⟩
  · by_cases endless : store.failures.value op = always
    · exact ⟨store.failures, by simp only [if_neg calm, if_pos endless]; simp [calm]⟩
    · refine ⟨store.failures.set op (store.failures.value op - 1), ?_⟩
      simp only [if_neg calm, if_neg endless]
      simp [calm]

theorem attempt_split {β : Type} {store after : Store α} {op : Op}
    {run : Store α → Except StoreError β × Store α} {result : Except StoreError β}
    (tried : store.attempt op run = (result, after)) :
    ∃ calls failures,
      store.failures.value op ≠ 0 ∧ result = .error (injected op) ∧
          after = { store with calls, failures } ∨
        run { store with calls, failures } = (result, after) := by
  obtain ⟨calls, failures, begun⟩ := store.begin_eq op
  refine ⟨calls, failures, ?_⟩
  unfold attempt at tried
  rw [begun] at tried
  by_cases calm : store.failures.value op = 0
  · simp only [calm, ne_eq, not_true, decide_false] at tried
    exact .inr tried
  · simp only [calm, ne_eq, not_false_eq_true, decide_true] at tried
    cases tried
    exact .inl ⟨calm, rfl, rfl⟩

variable [Resource α]

namespace Demand

/-- The key that is meant, if the object that is given has one. -/
def key : Demand α → Except KeyFault Key
  | put object => Resource.key object
  | create object => Resource.key object
  | updateStatus object => Resource.key object
  | get key => .ok key
  | delete key => .ok key
  | remove key => .ok key

/-- The operation that can be made to fail. -/
def op? : Demand α → Option Op
  | create _ => some .create
  | updateStatus _ => some .updateStatus
  | get _ => some .get
  | delete _ => some .delete
  | _ => none

end Demand

def answer (store : Store α) : Demand α → Outcome α × Store α
  | .put object => (store.put object).map (.ofResult .written) id
  | .create object => (store.create object).map (.ofResult .written) id
  | .updateStatus object => (store.updateStatus object).map (.ofResult .written) id
  | .get key => (store.get key).map (.ofResult .found) id
  | .delete key => (store.delete key).map (.ofResult fun _ => .deleted) id
  | .remove key => (store.remove key).map .removed id

end Store

/-- Whether an object carries a version, in decimal digits. -/
def Resource.HasVersion [Resource α] (object : α) (version : Nat) : Prop :=
  (Resource.metadata object).resourceVersion = some (toString version)

theorem Resource.HasVersion.unique [Resource α] {first second : α} {version other : Nat}
    (is : HasVersion first version) (also : HasVersion second other)
    (same : (Resource.metadata first).resourceVersion = (Resource.metadata second).resourceVersion) :
    version = other :=
  Nat.repr_inj.mp (Option.some.inj (is.symm.trans (same.trans also)))

namespace Store

variable [Resource α]

/-- What a write leaves behind: the object that it returns is stored, and told of once. -/
structure Wrote (before : Store α) (key : Key) (made : α) (after : Store α) : Prop where
  own : Resource.key made = .ok key
  identified : ∃ uid, (Resource.metadata made).uid = some uid
  stamped : Resource.HasVersion made after.version
  version : after.version = before.version + 1
  objects : after.objects = before.objects.insert key made
  feed : after.feed = before.feed ++ [.applied made]

theorem write_wrote (store : Store α) {key : Key} {object : α}
    (own : Resource.key object = .ok key) :
    store.Wrote key (store.stamp object) (store.write key object).2 where
  own := (store.stampOf_stamp object).key_eq.trans own
  identified := ⟨_, by rw [stamp, Resource.metadata_withMetadata]; rfl⟩
  stamped := by rw [Resource.HasVersion, stamp, Resource.metadata_withMetadata]; rfl
  version := rfl
  objects := rfl
  feed := rfl

theorem Wrote.of_counted {store after : Store α} {key : Key} {made : α} {calls failures : PerOp Nat}
    (wrote : Wrote { store with calls, failures } key made after) : store.Wrote key made after :=
  ⟨wrote.own, wrote.identified, wrote.stamped, wrote.version, wrote.objects, wrote.feed⟩

/-- Why a store refuses what is asked of it. -/
inductive Refuses (store : Store α) : Demand α → StoreError → Prop where
  | nameless {demand : Demand α} {fault : KeyFault} (unnamed : demand.key = .error fault) :
      Refuses store demand (.transient (ReconcileError.malformedKey fault).message)
  | injected {demand : Demand α} {op : Op} (asked : demand.op? = some op)
      (fails : store.failures.value op ≠ 0) : Refuses store demand (injected op)
  | taken {object held : α} {key : Key} (own : Resource.key object = .ok key)
      (present : store.object? key = some held) :
      Refuses store (.create object) (.alreadyExists key.text)
  | missing {object : α} {key : Key} (own : Resource.key object = .ok key)
      (absent : store.object? key = none) :
      Refuses store (.updateStatus object) (.notFound key.text)
  | unfit {object current : α} {key : Key} (own : Resource.key object = .ok key)
      (present : store.object? key = some current)
      (unreadable : Resource.replaceStatus current object = none) :
      Refuses store (.updateStatus object) (.transient "the object cannot hold this status")
  | gone {key : Key} (absent : store.object? key = none) :
      Refuses store (.delete key) (.notFound key.text)

/-- What an answer says about the store before and after it. -/
inductive Effect (before : Store α) (demand : Demand α) (after : Store α) : Outcome α → Prop where
  | written {key : Key} {object : α} (aim : demand.key = .ok key)
      (wrote : before.Wrote key object after) : Effect before demand after (.written object)
  | found {key : Key} (aim : demand.key = .ok key) (same : before.Same after) :
      Effect before demand after (.found (before.object? key))
  | deleted {key : Key} {gone : α} (aim : demand.key = .ok key)
      (lost : before.Lost key gone after) : Effect before demand after .deleted
  | removed {key : Key} {gone : α} (aim : demand.key = .ok key)
      (lost : before.Lost key gone after) : Effect before demand after (.removed (some gone))
  | missed {key : Key} (aim : demand.key = .ok key) (absent : before.object? key = none)
      (same : before.Same after) : Effect before demand after (.removed none)
  | refused {error : StoreError} (refuses : before.Refuses demand error)
      (same : before.Same after) : Effect before demand after (.refused error)

variable {store after : Store α} {object : α} {key : Key}

theorem put_effect {result : Except StoreError α} (called : store.put object = (result, after)) :
    store.Effect (.put object) after (.ofResult .written result) := by
  unfold put at called
  cases named : Resource.key object with
  | error fault =>
      simp only [keyOf, named] at called
      cases called
      exact .refused (.nameless named) ⟨rfl, rfl, rfl⟩
  | ok key =>
      simp only [keyOf_of_key named] at called
      cases called
      exact .written named (store.write_wrote named)

theorem create_effect {result : Except StoreError α}
    (called : store.create object = (result, after)) :
    store.Effect (.create object) after (.ofResult .written result) := by
  unfold create at called
  cases named : Resource.key object with
  | error fault =>
      simp only [keyOf, named] at called
      cases called
      exact .refused (.nameless named) ⟨rfl, rfl, rfl⟩
  | ok key =>
      simp only [keyOf_of_key named] at called
      -- A prepared failure comes before the object under the key is looked for.
      obtain ⟨calls, failures, ⟨fails, rfl, rfl⟩ | asked⟩ := attempt_split called
      · exact .refused (.injected rfl fails) ⟨rfl, rfl, rfl⟩
      · cases present : store.objects[key]? with
        | some held =>
            simp only [present] at asked
            cases asked
            exact .refused (.taken named present) ⟨rfl, rfl, rfl⟩
        | none =>
            simp only [present] at asked
            cases asked
            exact .written named (.of_counted (write_wrote _ named))

theorem updateStatus_effect [LawfulResource α] (keyed : Keyed store.objects)
    {result : Except StoreError α} (called : store.updateStatus object = (result, after)) :
    store.Effect (.updateStatus object) after (.ofResult .written result) := by
  unfold updateStatus at called
  cases named : Resource.key object with
  | error fault =>
      simp only [keyOf, named] at called
      cases called
      exact .refused (.nameless named) ⟨rfl, rfl, rfl⟩
  | ok key =>
      simp only [keyOf_of_key named] at called
      obtain ⟨calls, failures, ⟨fails, rfl, rfl⟩ | asked⟩ := attempt_split called
      · exact .refused (.injected rfl fails) ⟨rfl, rfl, rfl⟩
      · cases present : store.objects[key]? with
        | none =>
            simp only [present] at asked
            cases asked
            exact .refused (.missing named present) ⟨rfl, rfl, rfl⟩
        | some current =>
            simp only [present] at asked
            cases replaced : Resource.replaceStatus current object with
            | none =>
                simp only [replaced] at asked
                cases asked
                exact .refused (.unfit named present replaced) ⟨rfl, rfl, rfl⟩
            | some updated =>
                simp only [replaced] at asked
                cases asked
                -- The status is read back with the metadata of the stored object, and so with its key.
                have own : Resource.key updated = .ok key := by
                  rw [Resource.key, LawfulResource.metadata_replaceStatus replaced]
                  exact keyed key current present
                exact .written named (.of_counted (write_wrote _ own))

theorem get_effect {result : Except StoreError (Option α)}
    (called : store.get key = (result, after)) :
    store.Effect (.get key) after (.ofResult .found result) := by
  obtain ⟨calls, failures, ⟨fails, rfl, rfl⟩ | asked⟩ := attempt_split called
  · exact .refused (.injected rfl fails) ⟨rfl, rfl, rfl⟩
  · cases asked
    exact .found rfl ⟨rfl, rfl, rfl⟩

theorem remove_effect {gone? : Option α} (called : store.remove key = (gone?, after)) :
    store.Effect (.remove key) after (.removed gone?) := by
  unfold remove at called
  cases present : store.objects[key]? with
  | none =>
      simp only [present] at called
      cases called
      exact .missed rfl present ⟨rfl, rfl, rfl⟩
  | some gone =>
      simp only [present] at called
      cases called
      exact .removed rfl ⟨present, rfl, rfl, rfl⟩

theorem delete_effect {result : Except StoreError Unit}
    (called : store.delete key = (result, after)) :
    store.Effect (.delete key) after (.ofResult (fun _ => .deleted) result) := by
  obtain ⟨calls, failures, ⟨fails, rfl, rfl⟩ | asked⟩ := attempt_split called
  · exact .refused (.injected rfl fails) ⟨rfl, rfl, rfl⟩
  · unfold remove at asked
    cases present : store.objects[key]? with
    | none =>
        simp only [present] at asked
        cases asked
        exact .refused (.gone present) ⟨rfl, rfl, rfl⟩
    | some gone =>
        simp only [present] at asked
        cases asked
        exact .deleted rfl ⟨present, rfl, rfl, rfl⟩

theorem answer_effect [LawfulResource α] (keyed : Keyed store.objects) (demand : Demand α) :
    store.Effect demand (store.answer demand).2 (store.answer demand).1 := by
  cases demand with
  | put object => exact put_effect rfl
  | create object => exact create_effect rfl
  | updateStatus object => exact updateStatus_effect keyed rfl
  | get key => exact get_effect rfl
  | delete key => exact delete_effect rfl
  | remove key => exact remove_effect rfl

theorem Wrote.object?_eq {before after : Store α} {key : Key} {made : α}
    (wrote : before.Wrote key made after) : after.object? key = some made := by
  rw [object?, wrote.objects]
  exact Std.ExtTreeMap.getElem?_insert_self

/-- What always holds of the objects in a store. -/
structure Consistent (store : Store α) : Prop where
  keyed (key : Key) (object : α) (held : store.object? key = some object) :
    Resource.key object = .ok key
  identified (key : Key) (object : α) (held : store.object? key = some object) :
    ∃ uid, (Resource.metadata object).uid = some uid
  versioned (key : Key) (object : α) (held : store.object? key = some object) :
    ∃ version ≤ store.version, Resource.HasVersion object version
  apart (key other : Key) (first second : α) (held : store.object? key = some first)
    (also : store.object? other = some second)
    (same : (Resource.metadata first).resourceVersion = (Resource.metadata second).resourceVersion) :
    key = other

end Store

variable [Resource α]

/-- Whether the versions of some objects are counted down to one. -/
def Numbered : List α → Prop
  | [] => True
  | object :: earlier => Resource.HasVersion object (earlier.length + 1) ∧ Numbered earlier

namespace Numbered

variable {objects : List α}

theorem exists_le (numbered : Numbered objects) {object : α} (member : object ∈ objects) :
    ∃ version ≤ objects.length, Resource.HasVersion object version := by
  induction objects with
  | nil => contradiction
  | cons latest earlier ih =>
      rcases List.mem_cons.mp member with rfl | before
      · exact ⟨_, Nat.le_refl _, numbered.1⟩
      · obtain ⟨version, below, has⟩ := ih numbered.2 before
        exact ⟨version, Nat.le_succ_of_le below, has⟩

theorem eq_of_version (numbered : Numbered objects) {first second : α} (member : first ∈ objects)
    (also : second ∈ objects)
    (same : (Resource.metadata first).resourceVersion = (Resource.metadata second).resourceVersion) :
    first = second := by
  induction objects with
  | nil => contradiction
  | cons latest earlier ih =>
      -- The latest one has a version above all that came before.
      have newest {older : α} (before : older ∈ earlier) :
          (Resource.metadata latest).resourceVersion ≠ (Resource.metadata older).resourceVersion := by
        intro equal
        obtain ⟨version, below, has⟩ := exists_le numbered.2 before
        have := numbered.1.unique has equal
        omega
      rcases List.mem_cons.mp member with rfl | before <;>
        rcases List.mem_cons.mp also with rfl | past
      · rfl
      · exact absurd same (newest past)
      · exact absurd same.symm (newest before)
      · exact ih numbered.2 before past

end Numbered

/-- A store, and all the objects that its writes have returned, the last one first. -/
structure Archive (α : Type) where
  store : Store α
  written : List α := []

namespace Archive

/-- What somebody does with a store. No failures are left if it is to fail no times, and they do not
run out if it is to fail `Store.always`. -/
inductive Turn (α : Type) where
  | ask (demand : Store.Demand α)
  | fail (op : Op) (times : Nat)

def turn (archive : Archive α) : Turn α → Archive α
  | .ask demand =>
      let (outcome, store) := archive.store.answer demand
      { store, written := outcome.written?.toList ++ archive.written }
  | .fail op times => { archive with store := archive.store.fail op times }

/-- An empty store after some turns, the last one first. -/
def after (feedCapacity : Nat) (uids : Nat → String) : List (Turn α) → Archive α
  | [] => { store := { feedCapacity, uids } }
  | turn :: earlier => (after feedCapacity uids earlier).turn turn

structure Sound (archive : Archive α) : Prop where
  keyed : Keyed archive.store.objects
  kept (key : Key) (object : α) (held : archive.store.object? key = some object) :
    object ∈ archive.written
  identified : ∀ object ∈ archive.written, ∃ uid, (Resource.metadata object).uid = some uid
  numbered : Numbered archive.written
  counted : archive.store.version = archive.written.length

/-- How a demand is answered after what was written before. -/
structure Answers (archive : Archive α) (demand : Store.Demand α) (outcome : Store.Outcome α)
    (after : Store α) : Prop where
  effect : archive.store.Effect demand after outcome
  stored (object : α) (written : outcome = .written object) :
    ∃ key, demand.key = .ok key ∧ after.object? key = some object
  newest (object : α) (written : outcome = .written object) :
    ∃ version, Resource.HasVersion object version ∧
      ∀ earlier ∈ archive.written, ∃ older < version, Resource.HasVersion earlier older

namespace Sound

variable {archive : Archive α}

theorem empty (feedCapacity : Nat) (uids : Nat → String) :
    Sound { store := { feedCapacity, uids } : Archive α } where
  keyed := .empty
  kept key object held := by simp [Store.object?] at held
  identified := by simp
  numbered := trivial
  counted := rfl

theorem consistent (sound : archive.Sound) : archive.store.Consistent where
  keyed := sound.keyed
  identified key object held := sound.identified object (sound.kept key object held)
  versioned key object held := by
    rw [sound.counted]
    exact sound.numbered.exists_le (sound.kept key object held)
  apart key other first second held also same := by
    -- The two were returned by one write, and an object is stored under no key but its own.
    have equal := sound.numbered.eq_of_version (sound.kept key first held)
      (sound.kept other second also) same
    have own := sound.keyed key first held
    rw [equal, sound.keyed other second also] at own
    exact (Except.ok.inj own).symm

theorem of_same (sound : archive.Sound) {store : Store α} (same : archive.store.Same store) :
    Sound { archive with store } where
  keyed := same.objects ▸ sound.keyed
  kept key object held := by
    rw [Store.object?, same.objects] at held
    exact sound.kept key object held
  identified := sound.identified
  numbered := sound.numbered
  counted := same.version.trans sound.counted

theorem of_wrote (sound : archive.Sound) {key : Key} {made : α} {store : Store α}
    (wrote : archive.store.Wrote key made store) :
    Sound { store, written := made :: archive.written } where
  keyed := wrote.objects ▸ sound.keyed.insert wrote.own
  kept place object held := by
    rw [Store.object?, wrote.objects, Std.ExtTreeMap.getElem?_insert] at held
    split at held
    · cases held
      exact List.mem_cons_self ..
    · exact List.mem_cons_of_mem _ (sound.kept place object held)
  identified := List.forall_mem_cons.mpr ⟨wrote.identified, sound.identified⟩
  numbered := by
    have stamped := wrote.stamped
    rw [wrote.version, sound.counted] at stamped
    exact ⟨stamped, sound.numbered⟩
  counted := by rw [wrote.version, sound.counted, List.length_cons]

theorem of_lost (sound : archive.Sound) {key : Key} {gone : α} {store : Store α}
    (lost : archive.store.Lost key gone store) : Sound { archive with store } where
  keyed := lost.objects ▸ sound.keyed.erase key
  kept place object held := by
    rw [Store.object?, lost.objects, Std.ExtTreeMap.getElem?_erase] at held
    split at held
    · contradiction
    · exact sound.kept place object held
  identified := sound.identified
  numbered := sound.numbered
  counted := lost.version.trans sound.counted

theorem of_effect (sound : archive.Sound) {demand : Store.Demand α} {outcome : Store.Outcome α}
    {store : Store α} (effect : archive.store.Effect demand store outcome) :
    Sound { store, written := outcome.written?.toList ++ archive.written } := by
  cases effect with
  | written _ wrote => exact sound.of_wrote wrote
  | found _ same => exact sound.of_same same
  | deleted _ lost => exact sound.of_lost lost
  | removed _ lost => exact sound.of_lost lost
  | missed _ _ same => exact sound.of_same same
  | refused _ same => exact sound.of_same same

theorem turn [LawfulResource α] (sound : archive.Sound) (turn : Turn α) :
    (archive.turn turn).Sound := by
  cases turn with
  | ask demand => exact sound.of_effect (Store.answer_effect sound.keyed demand)
  | fail op times => exact sound.of_same ⟨rfl, rfl, rfl⟩

theorem answers (sound : archive.Sound) {demand : Store.Demand α} {outcome : Store.Outcome α}
    {store : Store α} (effect : archive.store.Effect demand store outcome) :
    archive.Answers demand outcome store where
  effect := effect
  stored object written := by
    subst written
    cases effect with
    | written aim wrote => exact ⟨_, aim, wrote.object?_eq⟩
  newest object written := by
    subst written
    cases effect with
    | written _ wrote =>
        have later := sound.of_wrote wrote
        refine ⟨_, later.numbered.1, fun earlier before => ?_⟩
        obtain ⟨older, below, has⟩ := sound.numbered.exists_le before
        exact ⟨older, Nat.lt_succ_of_le below, has⟩

end Sound

/-- One turn after the other keeps an archive sound. -/
theorem sound_after [LawfulResource α] (feedCapacity : Nat) (uids : Nat → String) (turns : List (Turn α)) :
    (after feedCapacity uids turns).Sound := by
  induction turns with
  | nil => exact .empty feedCapacity uids
  | cons turn earlier ih => exact ih.turn turn

/-- Whatever was asked of a store, and whatever it was made to refuse: every object in it is under
its own key, has a uid, and has a version that the store has counted and that no other object in it
has. And whatever is asked next, a write returns what is then stored, with a version above all that
were ever returned; what succeeds is told of once; and what is refused leaves the objects, the count
and the feed. -/
theorem versioned_of_turns [LawfulResource α] (feedCapacity : Nat) (uids : Nat → String) (turns : List (Turn α))
    (demand : Store.Demand α) :
    let archive := after feedCapacity uids turns
    let (outcome, store) := archive.store.answer demand
    archive.store.Consistent ∧ archive.Answers demand outcome store := by
  intro archive
  have sound := sound_after feedCapacity uids turns
  exact ⟨sound.consistent, sound.answers (Store.answer_effect sound.keyed demand)⟩

def bare (name : String) : ConfigMap := { metadata := { name := some name, space := some "ns" } }

/-- A create that is refused takes no version. -/
theorem versioned_of_refused :
    let archive := after 1024 (Store.serialUid 0) [.ask (.create (bare "a")), .ask (.put (bare "a"))]
    ∃ object, (archive.store.answer (.put (bare "b"))).1 = .written object ∧
      (∃ version, Resource.HasVersion object version ∧
        ∀ earlier ∈ archive.written, ∃ older < version, Resource.HasVersion earlier older) ∧
      Resource.HasVersion object 2 := by
  intro archive
  obtain ⟨_, answers⟩ := versioned_of_turns 1024 (Store.serialUid 0)
    [.ask (.create (bare "a")), .ask (.put (bare "a"))] (.put (bare "b"))
  exact ⟨_, rfl, answers.newest _ rfl, rfl⟩

end Archive

end ReconcileLoop
