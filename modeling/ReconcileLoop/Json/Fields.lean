import ReconcileLoop.Json.Basic

namespace ReconcileLoop.Json

/-! # Members of a given form

Readers for members of an object that may be unset; `null` counts as unset.
-/

/-- A member that may be unset, but has to be readable otherwise. -/
def optional? {α : Type} (read : Json → Option α) (name : String) (value : Json) :
    Option (Option α) :=
  match value.get? name with
  | none => some none
  | some null => some none
  | some held => (read held).map some

def strAt? (name : String) (value : Json) : Option String := (value.getSome? name).bind str?

def natAt? (name : String) (value : Json) : Option Nat := (value.getSome? name).bind nat?

def boolAt? (name : String) (value : Json) : Option Bool := (value.getSome? name).bind bool?

def itemsAt? (name : String) (value : Json) : Option (List Json) :=
  (value.getSome? name).bind items?

/-- Writes a value that may be unset. -/
def orNull {α : Type} (write : α → Json) (value? : Option α) : Json := ofOption (value?.map write)

def list {α : Type} (write : α → Json) (values : List α) : Json := arr (values.map write)

end ReconcileLoop.Json
