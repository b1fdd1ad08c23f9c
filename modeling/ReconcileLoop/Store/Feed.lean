import ReconcileLoop.Store.Basic
import ReconcileLoop.Watch.Pump

namespace ReconcileLoop

/-! # Watching a store

A watch of a store lists the objects that are there, and then follows the feed. A watch that falls
behind by more changes than the feed keeps lists again, from the present state.
-/

/-- A watch: what is left of a listing, and how many changes of the feed it has seen. -/
structure StoreWatch (α : Type) where
  listing : List (Delta α) := []
  seen : Nat := 0
deriving Inhabited

namespace StoreWatch

variable {α : Type}

/-- A watch that is about to list the objects of a store. -/
def start (store : Store α) : StoreWatch α :=
  { listing := .init :: store.list.map .initApplied ++ [.initDone], seen := store.feed.length }

/-- The next delta of a watch, none if it has seen everything. -/
def next? (store : Store α) (watch : StoreWatch α) : Option (Delta α × StoreWatch α) :=
  match watch.listing with
  | delta :: rest => some (delta, { watch with listing := rest })
  | [] =>
      if watch.seen + Store.powerOfTwo store.feedCapacity < store.feed.length then
        some (.init, { start store with listing := (start store).listing.tail })
      else
        store.feed[watch.seen]?.map fun delta => (delta, { watch with seen := watch.seen + 1 })

/-- Up to a number of deltas, and whether there were fewer. -/
def takeDeltas (store : Store α) (watch : StoreWatch α) : Nat → List (Delta α) × StoreWatch α × Bool
  | 0 => ([], watch, false)
  | count + 1 =>
      match watch.next? store with
      | none => ([], watch, true)
      | some (delta, after) =>
          let (rest, last, ended) := after.takeDeltas store count
          (delta :: rest, last, ended)

def next (store : Store α) (watch : StoreWatch α) : StreamItem α × StoreWatch α :=
  match watch.next? store with
  | some (delta, after) => (.delta delta, after)
  | none => (.pending, watch)

end StoreWatch

end ReconcileLoop
