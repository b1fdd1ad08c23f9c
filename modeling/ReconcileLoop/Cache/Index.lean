import ReconcileLoop.Object.Ownership
import ReconcileLoop.Watch.Delta
import Std.Data.ExtTreeSet

namespace ReconcileLoop

/-! # The index of a cache

An index holds the objects of one kind by key, and the keys of the objects that each owner controls.
It takes in deltas batch by batch and says what changed; `Index.freeze` gives the view that readers
see between two batches.
-/

/-- The keys of the objects that each owner controls, by the uid of the owner. -/
abbrev OwnerIndex := Std.ExtTreeMap String (Std.ExtTreeSet Key)

namespace OwnerIndex

def keys (owners : OwnerIndex) (uid : String) : Std.ExtTreeSet Key := owners[uid]?.getD ∅

def enter (owners : OwnerIndex) (uid? : Option String) (key : Key) : OwnerIndex :=
  match uid? with
  | some uid => owners.insert uid ((owners.keys uid).insert key)
  | none => owners

/-- Strikes a key from under a uid; a uid with no keys left is dropped. -/
def strike (owners : OwnerIndex) (uid? : Option String) (key : Key) : OwnerIndex :=
  match uid? with
  | some uid =>
      let left := (owners.keys uid).erase key
      if left.isEmpty then owners.erase uid else owners.insert uid left
  | none => owners

end OwnerIndex

/-- What readers see of a cache at one time. -/
structure Snapshot (α : Type) where
  /-- How many batches were taken in. The count does not stop at the 64 bits of an epoch: so many
  batches are out of reach. -/
  epoch : Nat := 0
  items : Std.ExtTreeMap Key α := ∅
  owners : OwnerIndex := ∅
deriving Inhabited

namespace Snapshot

variable {α : Type}

def get? (snapshot : Snapshot α) (key : Key) : Option α := snapshot.items[key]?

def size (snapshot : Snapshot α) : Nat := snapshot.items.size

def keys (snapshot : Snapshot α) : List Key := snapshot.items.keys

def objects (snapshot : Snapshot α) : List α := snapshot.items.values

def ownedBy (snapshot : Snapshot α) (uid : String) : List α :=
  (snapshot.owners.keys uid).toList.filterMap snapshot.get?

end Snapshot

/-- The objects of one kind as told by the deltas so far. -/
structure Index (α : Type) where
  /-- How many batches were taken in, again without a bound. -/
  epoch : Nat := 0
  items : Std.ExtTreeMap Key α := ∅
  owners : OwnerIndex := ∅
  /-- The keys listed since the last `init`, while a listing is going on. -/
  listing : Option (Std.ExtTreeSet Key) := none
  synced : Bool := false
deriving Inhabited

namespace Index

variable {α : Type}

def unlisted (index : Index α) (seen : Std.ExtTreeSet Key) : List Key :=
  index.items.keys.filter (· ∉ seen)

def freeze (index : Index α) : Snapshot α :=
  { epoch := index.epoch, items := index.items, owners := index.owners }

def size (index : Index α) : Nat := index.items.size

variable [Resource α]

def ownerUid? (object : α) : Option String := (Resource.metadata object).controllerUid?

def put (index : Index α) (key : Key) (object : α) : Index α × Notification α :=
  match index.items[key]? with
  | none =>
      ({ index with
        items := index.items.insert key object
        owners := index.owners.enter (ownerUid? object) key }, .added object)
  | some old =>
      let entered := index.owners.enter (ownerUid? object) key
      let owners :=
        if ownerUid? old = ownerUid? object then entered
        else (entered.strike (ownerUid? old) key).enter (ownerUid? object) key
      ({ index with items := index.items.insert key object, owners }, .updated old object)

/-- Takes in the present state of an object. One without a name is dropped. -/
def upsert (index : Index α) (object : α) : Index α × List (Notification α) :=
  match Resource.key object with
  | .ok key =>
      let (after, note) := index.put key object
      (after, [note])
  | .error _ => (index, [])

def remove (index : Index α) (key : Key) : Index α :=
  match index.items[key]? with
  | some gone =>
      { index with
        items := index.items.erase key
        owners := index.owners.strike (ownerUid? gone) key }
  | none => index

def see (index : Index α) (object : α) : Index α :=
  match index.listing, Resource.key object with
  | some seen, .ok key => { index with listing := some (seen.insert key) }
  | _, _ => index

def removeAll (index : Index α) : List Key → Index α × List (Notification α)
  | [] => (index, [])
  | key :: rest =>
      let (after, notes) := (index.remove key).removeAll rest
      match index.items[key]? with
      | some gone => (after, .deleted gone :: notes)
      | none => (after, notes)

/-- Closes a listing: what it did not name is gone. -/
def closeListing (index : Index α) : Index α × List (Notification α) :=
  match index.listing with
  | some seen =>
      let (after, notes) := { index with listing := none }.removeAll (index.unlisted seen)
      ({ after with synced := true }, notes)
  | none => ({ index with synced := true }, [])

def step (index : Index α) : Delta α → Index α × List (Notification α)
  | .applied object => index.upsert object
  | .initApplied object => (index.see object).upsert object
  | .deleted object =>
      match Resource.key object with
      | .ok key => (index.remove key, [.deleted object])
      | .error _ => (index, [])
  | .init => ({ index with listing := some ∅ }, [])
  | .initDone => index.closeListing

def steps (index : Index α) : List (Delta α) → Index α × List (Notification α)
  | [] => (index, [])
  | delta :: rest =>
      let (next, notes) := index.step delta
      let (last, more) := next.steps rest
      (last, notes ++ more)

/-- Takes in a batch of deltas, which is one epoch. -/
def apply (index : Index α) (batch : List (Delta α)) : Index α × List (Notification α) :=
  let (after, notes) := index.steps batch
  ({ after with epoch := index.epoch + 1 }, notes)

theorem steps_append (index : Index α) (first second : List (Delta α)) :
    index.steps (first ++ second) =
      (((index.steps first).1.steps second).1,
        (index.steps first).2 ++ ((index.steps first).1.steps second).2) := by
  induction first generalizing index with
  | nil => rfl
  | cons delta rest ih => simp [steps, ih]

end Index

end ReconcileLoop
