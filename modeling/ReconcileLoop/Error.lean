import ReconcileLoop.Key

namespace ReconcileLoop

/-! # What can go wrong

A store refuses an operation for one of four causes. A reconcile pass fails because a store did,
because the place of a dependent is taken, or because an object cannot be identified; a key whose
passes keep failing is given up for good.
-/

inductive StoreError where
  | notFound (what : String)
  | alreadyExists (what : String)
  /-- Somebody else wrote the object in between. -/
  | conflict (what : String)
  /-- A failure of the network, a timeout, or anything else that may pass. -/
  | transient (what : String)
deriving DecidableEq, Repr, Inhabited

namespace StoreError

def message : StoreError → String
  | notFound what => "not found: " ++ what
  | alreadyExists what => "already exists: " ++ what
  | conflict what => "conflict: " ++ what
  | transient what => "transient store error: " ++ what

def isNotFound : StoreError → Bool
  | notFound _ => true
  | _ => false

def isAlreadyExists : StoreError → Bool
  | alreadyExists _ => true
  | _ => false

def label : StoreError → String
  | notFound _ => "not_found"
  | alreadyExists _ => "already_exists"
  | conflict _ => "conflict"
  | transient _ => "transient"

end StoreError

inductive KeyFault where
  /-- The metadata names no object; the namespace is the one it gives. -/
  | nameless (space? : Option String)
  /-- The text is not that of a readable key. -/
  | unreadable (source : String)
  /-- An object of this kind has no name or no uid, so nothing can refer to it as its owner. -/
  | ownerless (kind : String)
  | other (reason : String)
deriving DecidableEq, Repr, Inhabited

def KeyFault.reason : KeyFault → String
  | nameless space? =>
      "object in namespace " ++ Text.quoted (space?.getD "") ++ " has no name"
  | unreadable source => "unexpected key format: " ++ Text.quoted source
  | ownerless kind => kind ++ " without name or uid cannot own dependents"
  | other reason => reason

inductive ReconcileError where
  /-- The key of a dependent belongs to an object that the primary does not control. -/
  | ownershipConflict (kind : String) (key : Key) (ownerKind owner : String)
  | store (cause : StoreError)
  | malformedKey (fault : KeyFault)
  /-- The passes of a key failed this often, the last time for the given cause. -/
  | permanentFailure (attempts : Nat) (cause : ReconcileError)
deriving DecidableEq, Repr, Inhabited

namespace ReconcileError

def message : ReconcileError → String
  | ownershipConflict kind key ownerKind owner =>
      kind ++ " " ++ key.text ++ " already exists and is not managed by " ++ ownerKind ++ " " ++
        owner
  | store cause => cause.message
  | malformedKey fault => "malformed key: " ++ fault.reason
  | permanentFailure attempts cause =>
      "giving up after " ++ toString attempts ++ " attempts: " ++ cause.message

/-- Another pass may succeed, unless the key is malformed or was given up. -/
def isRetryable : ReconcileError → Bool
  | malformedKey _ => false
  | permanentFailure _ _ => false
  | _ => true

def label : ReconcileError → String
  | ownershipConflict .. => "ownership_conflict"
  | store cause => cause.label
  | malformedKey _ => "malformed_key"
  | permanentFailure .. => "permanent"

def cause? : ReconcileError → Option ReconcileError
  | permanentFailure _ cause => some cause
  | _ => none

end ReconcileError

/-- The key of an object with the given metadata: it needs a name, and an empty namespace counts as
none. -/
def Key.ofParts (space? name? : Option String) : Except KeyFault Key :=
  match name? with
  | some name =>
      if name = "" then .error (.nameless space?)
      else .ok ⟨space?.filter (· ≠ ""), name⟩
  | none => .error (.nameless space?)

def Key.parse (source : String) : Except KeyFault Key :=
  match Key.parse? source with
  | some key => .ok key
  | none => .error (.unreadable source)

theorem Key.name_ne_of_ofParts {space? name? : Option String} {key : Key}
    (made : Key.ofParts space? name? = .ok key) :
    name? = some key.name ∧ key.name ≠ "" ∧ key.space? = space?.filter (· ≠ "") := by
  unfold Key.ofParts at made
  split at made
  · split at made
    · contradiction
    · next nonempty => cases made; exact ⟨rfl, nonempty, rfl⟩
  · contradiction

end ReconcileLoop
