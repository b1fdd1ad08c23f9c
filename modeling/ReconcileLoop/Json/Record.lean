import ReconcileLoop.Json.Basic

namespace ReconcileLoop.Json

/-! # Records

A structure with named members is written as an object, or as an array of the members in their
order. Members that the structure does not have are ignored in an object; an array must not have
more items than there are members. Each reader below decides what an absent member means.
-/

/-- Whether a value has the form of a structure with a number of members. -/
def isRecord (size : Nat) : Json → Bool
  | obj _ => true
  | arr items => decide (items.length ≤ size)
  | _ => false

/-- The value of a member, by its name or by its place. -/
def recordMember? (place : Nat) (name : String) : Json → Option Json
  | obj members => lookup name members
  | arr items => items[place]?
  | _ => none

def required? {α : Type} (read : Json → Option α) (place : Nat) (name : String) (value : Json) :
    Option α :=
  (value.recordMember? place name).bind read

/-- A member with a value to assume if it is absent. -/
def defaulted? {α : Type} (read : Json → Option α) (default : α) (place : Nat) (name : String)
    (value : Json) : Option α :=
  match value.recordMember? place name with
  | none => some default
  | some held => read held

/-- What stands for an unset value is `null`. -/
def nullable? {α : Type} (read : Json → Option α) : Json → Option (Option α)
  | null => some none
  | held => (read held).map some

/-- A member that may be unset. An object may lack it, an array may not. -/
def nullableMember? {α : Type} (read : Json → Option α) (place : Nat) (name : String)
    (value : Json) : Option (Option α) :=
  match value.recordMember? place name, value with
  | some held, _ => nullable? read held
  | none, arr _ => none
  | none, _ => some none

def int32? : Json → Option Int32
  | int n =>
      if Int32.minValue.toInt ≤ n ∧ n ≤ Int32.maxValue.toInt then some (Int32.ofInt n) else none
  | _ => none

def ofInt32 (n : Int32) : Json := int n.toInt

theorem int32?_ofInt32 (n : Int32) : int32? (ofInt32 n) = some n := by
  simp only [int32?, ofInt32]
  rw [if_pos ⟨n.minValue_le_toInt, n.toInt_le⟩, Int32.ofInt_toInt]

def listOf? {α : Type} (read : Json → Option α) : Json → Option (List α)
  | arr items => items.mapM read
  | _ => none

end ReconcileLoop.Json
