import ReconcileLoop.Reconcile.World
import ReconcileLoop.Template

namespace ReconcileLoop

/-! # Bringing dependents in line

For one kind of dependents: delete those of the primary that it does not ask for, create the one
that it asks for unless it is there, and look at what it reports. Dependents are only ever created
and deleted, and an object that somebody else controls is left alone.
-/

namespace Template

variable {α σ δ : Type} [Primary α σ] [Resource δ]

/-- A rendered dependent in the namespace of its primary, and with the primary as its controller. -/
def adopted (primary : α) (owner : OwnerReference) (rendered : δ) : δ :=
  Resource.withMetadata rendered
    { Resource.metadata rendered with
      space := (Resource.metadata primary).space
      ownerReferences := some [owner] }

def desired (template : Template α σ δ) (primary : α) : Except ReconcileError (Option δ) :=
  match template.render primary with
  | none => .ok none
  | some rendered =>
      match OwnerReference.toController? primary with
      | none => .error (.malformedKey (.ownerless (Resource.kindName α)))
      | some owner => .ok (some (adopted primary owner rendered))

end Template

namespace ScriptedStore

variable {δ : Type} [Resource δ]

/-- Deletes dependents, and says whether there was something to delete. One that is gone already is
no failure. -/
def deleteAll (api : ScriptedStore δ) : List δ → Except ReconcileError Bool × ScriptedStore δ
  | [] => (.ok false, api)
  | dependent :: rest =>
      match Resource.key dependent with
      | .error fault => (.error (.malformedKey fault), api)
      | .ok key =>
          match api.delete key with
          | (.ok (), after) =>
              match after.deleteAll rest with
              | (.ok _, last) => (.ok true, last)
              | failed => failed
          | (.error error, after) =>
              if error.isNotFound then after.deleteAll rest else (.error (.store error), after)

/-- Creates a dependent and reads it back. If it is there already it is only read, and if it cannot
be read back after it was created, the answer of the creation will do. -/
def ensure (api : ScriptedStore δ) (key : Key) (desired : δ) :
    Except ReconcileError (δ × Bool) × ScriptedStore δ :=
  match api.create desired with
  | (.ok created, after) =>
      match after.get key with
      | (.ok (some fresh), last) => (.ok (fresh, true), last)
      | (_, last) => (.ok (created, true), last)
  | (.error error, after) =>
      if error.isAlreadyExists then
        match after.get key with
        | (.ok (some existing), last) => (.ok (existing, false), last)
        | (.ok none, last) => (.error (.store error), last)
        | (.error failure, last) => (.error (.store failure), last)
      else (.error (.store error), after)

end ScriptedStore

namespace Access

variable {α σ δ : Type} [Primary α σ] [Resource δ]

/-- Whether a dependent is to be deleted: it is not the one to keep, and lives in the namespace of
its primary. -/
def isStale (primary : α) (keep : Option String) (dependent : δ) : Bool :=
  decide ((Resource.metadata dependent).name ≠ keep) &&
    decide ((Resource.metadata dependent).space = (Resource.metadata primary).space)

/-- The dependents that the cache shows as controlled by a primary, and that are to be deleted. A
primary without a uid controls nothing. -/
def stale (access : Access δ) (primary : α) (keep : Option String) : List δ :=
  match (Resource.metadata primary).uid with
  | none => []
  | some uid => (access.cache.ownedBy uid).filter (isStale primary keep)

/-- The dependent under a key as it is, and whether it had to be created. -/
def actual (access : Access δ) (key : Key) (desired : δ) :
    Except ReconcileError (δ × Bool) × ScriptedStore δ :=
  match access.cache.get? key with
  | some cached => (.ok (cached, false), access.api)
  | none => access.api.ensure key desired

/-- The failure of a primary whose dependent would take the place of somebody else's object. -/
def conflict (δ : Type) [Resource δ] (key : Key) (primary : α) : ReconcileError :=
  .ownershipConflict (Resource.kindName δ) key (Resource.kindName α)
    ((Resource.metadata primary).name.getD "")

/-- Makes sure that the desired dependent is there and takes over what it reports. -/
def provide (access : Access δ) (template : Template α σ δ) (primary : α) (status : σ)
    (mutated : Bool) (desired : δ) : Except ReconcileError (Bool × σ) × Access δ :=
  match Resource.key desired with
  | .error fault => (.error (.malformedKey fault), access)
  | .ok key =>
      match access.actual key desired with
      | (.error error, api) => (.error error, { access with api })
      | (.ok (found, created), api) =>
          if (Resource.metadata found).isControlledBy primary then
            (.ok (mutated || created, template.observe found status), { access with api })
          else (.error (conflict δ key primary), { access with api })

/-- Brings one kind of dependents in line: whether something was created or deleted, and the status
with what the dependents report. -/
def sync (access : Access δ) (template : Template α σ δ) (primary : α) (status : σ) :
    Except ReconcileError (Bool × σ) × Access δ :=
  match template.desired primary with
  | .error error => (.error error, access)
  | .ok desired =>
      let keep := desired.bind fun object => (Resource.metadata object).name
      match access.api.deleteAll (access.stale primary keep) with
      | (.error error, api) => (.error error, { access with api })
      | (.ok deleted, api) =>
          match desired with
          | none => (.ok (deleted, template.clear status), { access with api })
          | some object => { access with api }.provide template primary status deleted object

end Access

end ReconcileLoop
