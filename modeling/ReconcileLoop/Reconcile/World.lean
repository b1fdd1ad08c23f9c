import ReconcileLoop.Cache.Index
import ReconcileLoop.Object.Manifest
import ReconcileLoop.Store.Scripted

namespace ReconcileLoop

/-! # What passes work on

For each kind there is a cache, in which objects are looked up, and a store, in which they are
changed. The cache may lag behind the store.
-/

/-- One value for each built-in kind. -/
structure PerKind (F : BuiltIn → Type) where
  configMap : F .configMap
  service : F .service
  deployment : F .deployment
  ingress : F .ingress

namespace PerKind

variable {F : BuiltIn → Type}

def ofFun (value : (type : BuiltIn) → F type) : PerKind F :=
  ⟨value .configMap, value .service, value .deployment, value .ingress⟩

def get (values : PerKind F) : (type : BuiltIn) → F type
  | .configMap => values.configMap
  | .service => values.service
  | .deployment => values.deployment
  | .ingress => values.ingress

def set (values : PerKind F) : (type : BuiltIn) → F type → PerKind F
  | .configMap, value => { values with configMap := value }
  | .service, value => { values with service := value }
  | .deployment, value => { values with deployment := value }
  | .ingress, value => { values with ingress := value }

@[simp] theorem get_ofFun (value : (type : BuiltIn) → F type) (type : BuiltIn) :
    (ofFun value).get type = value type := by
  cases type <;> rfl

@[simp] theorem get_set_same (values : PerKind F) (type : BuiltIn) (value : F type) :
    (values.set type value).get type = value := by
  cases type <;> rfl

theorem get_set_other {values : PerKind F} {type other : BuiltIn} {value : F type}
    (differ : other ≠ type) : (values.set type value).get other = values.get other := by
  cases type <;> cases other <;> first | rfl | exact absurd rfl differ

end PerKind

structure Access (δ : Type) where
  cache : Snapshot δ := {}
  api : ScriptedStore δ := {}
deriving Inhabited

structure World (α : Type) where
  primary : Access α := {}
  dependents : PerKind fun type => Access (Manifest type) := .ofFun fun _ => {}

end ReconcileLoop
