import ReconcileLoop.Cache.Ingest
import ReconcileLoop.Reconcile.World
import ReconcileLoop.Store.Feed

namespace ReconcileLoop

/-! # Watched kinds

A site is all there is of one kind: its store, the watch on it, and the cache that the watch feeds.
-/

structure Site (δ : Type) where
  api : ScriptedStore δ := {}
  /-- Whether the watch ends before it lists anything. -/
  silenced : Bool := false
  /-- The pump, once the kind is watched; it reads nothing if the watch has ended. -/
  pump : Option (Pump δ (Option (StoreWatch δ))) := none
  ingest : Ingest δ := .ofCapacity 1
deriving Inhabited

namespace Site

variable {δ : Type}

def access (site : Site δ) : Access δ := { cache := site.ingest.snapshot, api := site.api }

def watch (site : Site δ) (capacity : Nat) : Site δ :=
  let stream := if site.silenced then none else some (StoreWatch.start site.api.store)
  { site with pump := some { stream }, ingest := .ofCapacity capacity }

def next (store : Store δ) : Option (StoreWatch δ) → StreamItem δ × Option (StoreWatch δ)
  | none => (.ended, none)
  | some watch =>
      let (item, after) := watch.next store
      (item, some after)

/-- A step of the pump. A pump that has finished sends no more. -/
def pumpStep? (site : Site δ) (shutdown : Bool) : Option (Site δ) := do
  let pump ← site.pump
  let (pump, channel) ← pump.step? (next site.api.store) shutdown site.ingest.channel
  let channel := if pump.isFinished then channel.closeSender else channel
  return { site with pump := some pump, ingest := { site.ingest with channel } }

def ingestStep? [Resource δ] (site : Site δ) : Option (Site δ × Option (Notification δ)) := do
  let (ingest, note?) ← site.ingest.step?
  return ({ site with ingest }, note?)

def step? [Resource δ] (site : Site δ) (shutdown : Bool) :
    Option (Site δ × Option (Notification δ)) :=
  match site.pumpStep? shutdown with
  | some after => some (after, none)
  | none => if site.pump.isSome then site.ingestStep? else none

end Site

end ReconcileLoop
