namespace ReconcileLoop

/-! # Watching a kind

A watch reports single changes, and from time to time a listing: the objects between `init` and
`initDone` are all there are, so an object that was known before and is not listed is gone. A cache
turns what it is told into notifications, which carry the state before as well.
-/

inductive Delta (α : Type) where
  | applied (object : α)
  | deleted (object : α)
  | init
  | initApplied (object : α)
  | initDone
deriving DecidableEq, Repr, Inhabited

inductive Notification (α : Type) where
  | added (object : α)
  | updated (old new : α)
  | deleted (object : α)
deriving DecidableEq, Repr, Inhabited

def Notification.object {α : Type} : Notification α → α
  | added object => object
  | updated _ new => new
  | deleted object => object

end ReconcileLoop
