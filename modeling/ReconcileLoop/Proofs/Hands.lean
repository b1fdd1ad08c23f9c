import ReconcileLoop.Controller.Worker
import ReconcileLoop.Proofs.Queue.Exclusion

namespace ReconcileLoop

/-! # What workers have in hand

A worker has a key in hand from the step in which it takes the key out of the queue, and until a
pass has looked the key up nothing was read for it. A step of one worker changes nothing for the
others, which is what `bind_getElem?_set` says.
-/

theorem bind_getElem?_set {β γ : Type} {items : List β} {place : Nat} {old : β}
    (there : items[place]? = some old) (new : β) (view : β → Option γ) (other : Nat) :
    (items.set place new)[other]?.bind view =
      if other = place then view new else items[other]?.bind view := by
  have inside : place < items.length := (List.getElem?_eq_some_iff.mp there).1
  rw [List.getElem?_set]
  by_cases same : place = other
  · subst same
    simp [inside]
  · simp [same, Ne.symm same]

namespace Worker

/-- The key that a worker has taken out of the queue and not released. -/
def held? : Worker → Option Key
  | getting (.finished key?) => key?
  | worker => worker.key?

/-- The key that a worker has taken out of the queue and not looked up. -/
def unread? : Worker → Option Key
  | getting (.finished key?) => key?
  | holding key => some key
  | _ => none

theorem held?_of_step? {shared after : Queue.Shared Key} {getter next : Queue.Getter Key}
    (moved : getter.step? shared = some (after, next)) : held? (getting getter) = none := by
  cases getter with
  | finished key? => contradiction
  | fresh => rfl
  | joined ticket? => rfl
  | waiting ticket? => rfl

theorem unread?_of_step? {shared after : Queue.Shared Key} {getter next : Queue.Getter Key}
    (moved : getter.step? shared = some (after, next)) : unread? (getting getter) = none := by
  cases getter with
  | finished key? => contradiction
  | fresh => rfl
  | joined ticket? => rfl
  | waiting ticket? => rfl

end Worker

end ReconcileLoop
