import ReconcileLoop.Object.Resource
import ReconcileLoop.Text.Quoted
import ReconcileLoop.Watch.Delta

namespace ReconcileLoop

/-! # A store of objects

A store holds the objects of one kind by key. Every write stamps the object with the next version,
and gives it a uid if it has none; every change is appended to a feed. The operations a controller
uses are counted and can be made to fail.
-/

inductive Op where
  | get
  | create
  | updateStatus
  | delete
deriving DecidableEq, Repr, Inhabited

def Op.name : Op → String
  | get => "Get"
  | create => "Create"
  | updateStatus => "UpdateStatus"
  | delete => "Delete"

/-- One value for each operation. -/
structure PerOp (β : Type) where
  get : β
  create : β
  updateStatus : β
  delete : β
deriving DecidableEq, Repr, Inhabited

namespace PerOp

variable {β : Type}

def all (value : β) : PerOp β := ⟨value, value, value, value⟩

def value (values : PerOp β) : Op → β
  | .get => values.get
  | .create => values.create
  | .updateStatus => values.updateStatus
  | .delete => values.delete

def set (values : PerOp β) (op : Op) (value : β) : PerOp β :=
  match op with
  | .get => { values with get := value }
  | .create => { values with create := value }
  | .updateStatus => { values with updateStatus := value }
  | .delete => { values with delete := value }

theorem value_set (values : PerOp β) (op other : Op) (value : β) :
    (values.set op value).value other = if other = op then value else values.value other := by
  cases op <;> cases other <;> rfl

end PerOp

def Store.hexDigits (width n : Nat) : String :=
  let digits := Nat.toDigits 16 n
  String.ofList (List.replicate (width - digits.length) '0' ++ digits)

/-- Uids that are counted, and that tell the objects of one series from those of others. -/
def Store.serialUid (series version : Nat) : String :=
  hexDigits 8 version ++ "-0000-4000-8000-" ++ hexDigits 12 series

structure Store (α : Type) where
  objects : Std.ExtTreeMap Key α := ∅
  /-- The version of the last write. It has no bound here: writes that would count past 64 bits are
  out of reach. -/
  version : Nat := 0
  /-- How many of the next calls of an operation fail. -/
  failures : PerOp Nat := .all 0
  calls : PerOp Nat := .all 0
  /-- The changes so far, the oldest first. -/
  feed : List (Delta α) := []
  /-- How many changes a watch may be behind before it has to list again. -/
  feedCapacity : Nat := 1024
  /-- The uid for an object that has none when it is written at a version. -/
  uids : Nat → String := Store.serialUid 0
deriving Inhabited

namespace Store

variable {α : Type}

/-- A number of failures that does not run out. -/
def always : Nat := UInt32.size - 1

/-- The least power of two that is not below a number. -/
def powerOfTwo (least : Nat) : Nat :=
  if least ≤ 1 then 1 else 1 <<< (Nat.log2 (least - 1) + 1)

def object? (store : Store α) (key : Key) : Option α := store.objects[key]?

/-- The objects in the order of their keys. -/
def list (store : Store α) : List α := store.objects.toList.map (·.2)

def fail (store : Store α) (op : Op) (times : Nat) : Store α :=
  { store with failures := store.failures.set op times }

def announce (store : Store α) (delta : Delta α) : Store α :=
  { store with feed := store.feed ++ [delta] }

def remove (store : Store α) (key : Key) : Option α × Store α :=
  match store.objects[key]? with
  | some gone => (some gone, { store with objects := store.objects.erase key }.announce (.deleted gone))
  | none => (none, store)

def injected (op : Op) : StoreError := .transient ("injected " ++ op.name ++ " failure")

/-- Counts a call, and says whether it fails. -/
def begin (store : Store α) (op : Op) : Bool × Store α :=
  let counted := { store with calls := store.calls.set op (store.calls.value op + 1) }
  let failures := store.failures.value op
  if failures = 0 then (false, counted)
  else if failures = always then (true, counted)
  else (true, { counted with failures := store.failures.set op (failures - 1) })

variable [Resource α]

/-- The metadata of an object that is written at a version. -/
def stamped (fresh : String) (version : Nat) (metadata : Metadata) : Metadata :=
  { metadata with
    resourceVersion := some (toString version)
    uid := some (metadata.uid.getD fresh) }

def stamp (store : Store α) (object : α) : α :=
  Resource.withMetadata object
    (stamped (store.uids (store.version + 1)) (store.version + 1) (Resource.metadata object))

def write (store : Store α) (key : Key) (object : α) : α × Store α :=
  let written := store.stamp object
  (written,
    { store with
      objects := store.objects.insert key written
      version := store.version + 1 }.announce (.applied written))

/-- The key of an object; without a name it cannot be stored. -/
def keyOf (object : α) : Except StoreError Key :=
  match Resource.key object with
  | .ok key => .ok key
  | .error fault => .error (.transient (ReconcileError.malformedKey fault).message)

/-- Writes an object the way somebody outside would, whether it is there or not. -/
def put (store : Store α) (object : α) : Except StoreError α × Store α :=
  match keyOf object with
  | .error error => (.error error, store)
  | .ok key =>
      let (written, after) := store.write key object
      (.ok written, after)

/-- Runs an operation, unless it was made to fail. -/
def attempt {β : Type} (store : Store α) (op : Op)
    (run : Store α → Except StoreError β × Store α) : Except StoreError β × Store α :=
  match store.begin op with
  | (true, counted) => (.error (injected op), counted)
  | (false, counted) => run counted

def get (store : Store α) (key : Key) : Except StoreError (Option α) × Store α :=
  store.attempt .get fun store => (.ok store.objects[key]?, store)

def create (store : Store α) (object : α) : Except StoreError α × Store α :=
  match keyOf object with
  | .error error => (.error error, store)
  | .ok key =>
      store.attempt .create fun store =>
        match store.objects[key]? with
        | some _ => (.error (.alreadyExists key.text), store)
        | none =>
            let (written, after) := store.write key object
            (.ok written, after)

/-- Gives the stored object the status of the given one. -/
def updateStatus (store : Store α) (object : α) : Except StoreError α × Store α :=
  match keyOf object with
  | .error error => (.error error, store)
  | .ok key =>
      store.attempt .updateStatus fun store =>
        match store.objects[key]? with
        | none => (.error (.notFound key.text), store)
        | some current =>
            match Resource.replaceStatus current object with
            | none => (.error (.transient "the object cannot hold this status"), store)
            | some updated =>
                let (written, after) := store.write key updated
                (.ok written, after)

def delete (store : Store α) (key : Key) : Except StoreError Unit × Store α :=
  store.attempt .delete fun store =>
    match store.remove key with
    | (some _, after) => (.ok (), after)
    | (none, _) => (.error (.notFound key.text), store)

end Store

end ReconcileLoop
