import ReconcileLoop.Store.Basic

namespace ReconcileLoop

/-! # Stores with prepared replies

The next calls of an operation can be given replies in advance, which are used up before the store
itself is asked. Such calls neither change the store nor count, unless they are let through to it;
so any of the calls of an operation can be made to fail, in any pattern.
-/

inductive Reply where
  | refuse (error : StoreError)
  /-- A look-up finds nothing. -/
  | nothing
  /-- The store itself is asked. -/
  | forward
deriving DecidableEq, Repr, Inhabited

structure ScriptedStore (α : Type) where
  store : Store α := {}
  /-- The replies prepared for each operation, the next one first. -/
  replies : PerOp (List Reply) := .all []
deriving Inhabited

namespace ScriptedStore

variable {α : Type}

/-- Prepares replies, in place of those prepared before. -/
def prepare (scripted : ScriptedStore α) (op : Op) (replies : List Reply) : ScriptedStore α :=
  { scripted with replies := scripted.replies.set op replies }

/-- Uses up a prepared reply, or asks the store. -/
def call {β : Type} (scripted : ScriptedStore α) (op : Op) (nothing : Option β)
    (ask : Store α → Except StoreError β × Store α) : Except StoreError β × ScriptedStore α :=
  match scripted.replies.value op, nothing with
  | .refuse error :: rest, _ => (.error error, scripted.prepare op rest)
  | .nothing :: rest, some value => (.ok value, scripted.prepare op rest)
  | .forward :: rest, _ =>
      let (answer, store) := ask scripted.store
      (answer, { scripted.prepare op rest with store })
  | _, _ =>
      let (answer, store) := ask scripted.store
      (answer, { scripted with store })

def delete (scripted : ScriptedStore α) (key : Key) : Except StoreError Unit × ScriptedStore α :=
  scripted.call .delete none (·.delete key)

def get (scripted : ScriptedStore α) (key : Key) :
    Except StoreError (Option α) × ScriptedStore α :=
  scripted.call .get (some none) (·.get key)

variable [Resource α]

def create (scripted : ScriptedStore α) (object : α) : Except StoreError α × ScriptedStore α :=
  scripted.call .create none (·.create object)

def updateStatus (scripted : ScriptedStore α) (object : α) :
    Except StoreError α × ScriptedStore α :=
  scripted.call .updateStatus none (·.updateStatus object)

end ScriptedStore

end ReconcileLoop
