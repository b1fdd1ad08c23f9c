import ReconcileLoop.Object.Resource

namespace ReconcileLoop

/-! # Built-in objects

Config maps, services, deployments and ingresses are kept as the cluster writes them: metadata and
the content as JSON, without the members that are `null` and with those that are always written.
-/

inductive BuiltIn where
  | configMap
  | service
  | deployment
  | ingress
deriving DecidableEq, Repr, Inhabited

namespace BuiltIn

def kind : BuiltIn → Kind
  | configMap => ⟨"", "v1", "ConfigMap", "configmaps"⟩
  | service => ⟨"", "v1", "Service", "services"⟩
  | deployment => ⟨"apps", "v1", "Deployment", "deployments"⟩
  | ingress => ⟨"networking.k8s.io", "v1", "Ingress", "ingresses"⟩

inductive Content where
  | record
  | texts
  | flag

/-- The members of the content of a kind, in order. -/
def contents : BuiltIn → List (String × Content)
  | configMap => [("binaryData", .texts), ("data", .texts), ("immutable", .flag)]
  | _ => [("spec", .record), ("status", .record)]

/-- A step from a value to values inside it. -/
inductive Step where
  | member (name : String)
  | each

/-- A member that is written even if it is unset. -/
structure Requirement where
  /-- Where the values are that have the member, from the whole object. -/
  path : List Step
  name : String
  default : Json

/-- The members that are always written, outer ones first. -/
def requirements : BuiltIn → List Requirement
  | configMap => []
  | service => [⟨[.member "spec", .member "ports", .each], "port", .int 0⟩]
  | deployment =>
      [⟨[.member "spec"], "selector", .obj []⟩,
        ⟨[.member "spec"], "template", .obj []⟩,
        ⟨[.member "spec", .member "template", .member "spec"], "containers", .arr []⟩,
        ⟨[.member "spec", .member "template", .member "spec", .member "containers", .each],
          "name", .str ""⟩]
  | ingress =>
      let paths := [.member "spec", .member "rules", .each, .member "http", .member "paths", .each]
      [⟨[.member "spec", .member "rules", .each, .member "http"], "paths", .arr []⟩,
        ⟨paths, "backend", .obj []⟩,
        ⟨paths, "pathType", .str ""⟩,
        ⟨paths ++ [.member "backend", .member "service"], "name", .str ""⟩]

def statusNumbers : BuiltIn → List String
  | deployment =>
      ["availableReplicas", "collisionCount", "readyReplicas", "replicas", "unavailableReplicas",
        "updatedReplicas"]
  | _ => []

end BuiltIn

namespace Json

mutual

/-- The value without members that are `null`, however deep. -/
def withoutNulls : Json → Json
  | arr items => arr (itemsWithoutNulls items)
  | obj members => obj (membersWithoutNulls members)
  | other => other

def itemsWithoutNulls : List Json → List Json
  | [] => []
  | item :: rest => withoutNulls item :: itemsWithoutNulls rest

def membersWithoutNulls : List (String × Json) → List (String × Json)
  | [] => []
  | (_, null) :: rest => membersWithoutNulls rest
  | (name, value) :: rest => (name, withoutNulls value) :: membersWithoutNulls rest

end

def modifyAt (change : Json → Json) : List BuiltIn.Step → Json → Json
  | [], value => change value
  | .member name :: path, obj members =>
      obj (members.map fun member =>
        if member.1 = name then (name, modifyAt change path member.2) else member)
  | .each :: path, arr items => arr (items.map (modifyAt change path))
  | _, value => value

/-- Gives an object a member, unless it has one of that name. -/
def ensureMember (name : String) (default : Json) : Json → Json
  | obj members =>
      if (lookup name members).isSome then obj members else obj (insertMember name default members)
  | other => other

/-- Whether the value is a whole number of 32 bits. -/
def isInt32 : Json → Bool
  | int n => decide (Int32.minValue.toInt ≤ n) && decide (n ≤ Int32.maxValue.toInt)
  | _ => false

end Json

structure Manifest (type : BuiltIn) where
  metadata : Metadata := {}
  /-- The members of the content that are set, in order. -/
  content : List (String × Json) := []
deriving DecidableEq, Inhabited

namespace Manifest

variable {type : BuiltIn}

def member? (manifest : Manifest type) (name : String) : Option Json :=
  Json.lookup name manifest.content

def spec? (manifest : Manifest type) : Option Json := manifest.member? "spec"

def status? (manifest : Manifest type) : Option Json := manifest.member? "status"

/-- The object as JSON; the content cannot stand in for the kind or the metadata. -/
def encode (manifest : Manifest type) : Json :=
  .ofMembers
    (manifest.content ++
      [("apiVersion", .str type.kind.apiVersion), ("kind", .str type.kind.name),
        ("metadata", manifest.metadata.toJson)])

/-- Whether a member of the content has the right form. -/
def accepts : BuiltIn.Content → Json → Bool
  | .record, .obj _ => true
  | .texts, value => (TextMap.ofJson? value).isSome
  | .flag, .bool _ => true
  | _, _ => false

/-- The set members of the content of a value, if they have the right form. -/
def contentOf? (value : Json) : List (String × BuiltIn.Content) → Option (List (String × Json))
  | [] => some []
  | (name, form) :: rest =>
      match value.getSome? name with
      | none => contentOf? value rest
      | some held =>
          if accepts form held then (contentOf? value rest).map ((name, held) :: ·) else none

/-- Whether a value may be of the kind: it need not say so, but must not say otherwise. -/
def claims (kind : Kind) (value : Json) : Bool :=
  (value.get? "apiVersion").all (· = .str kind.apiVersion) &&
    (value.get? "kind").all (· = .str kind.name)

/-- Whether the numbers in the status are whole and have 32 bits. -/
def numbersFit (type : BuiltIn) (value : Json) : Bool :=
  type.statusNumbers.all fun name =>
    (((value.get? "status").bind (Json.get? name)).all Json.isInt32)

def decode (type : BuiltIn) (value : Json) : Option (Manifest type) := do
  guard (value.members?.isSome && claims type.kind value)
  let metadata ← value.optional? Metadata.ofJson? "metadata"
  let complete := type.requirements.foldl
    (fun value required =>
      value.modifyAt (Json.ensureMember required.name required.default) required.path)
    value.withoutNulls
  guard (numbersFit type complete)
  let content ← contentOf? complete type.contents
  return { metadata := metadata.getD {}, content }

instance : Resource (Manifest type) where
  kind := type.kind
  metadata := Manifest.metadata
  withMetadata manifest given := { manifest with metadata := given }
  encode := encode
  decode := decode type
  metadata_withMetadata _ _ := rfl

end Manifest

abbrev ConfigMap := Manifest .configMap

abbrev Service := Manifest .service

abbrev Deployment := Manifest .deployment

abbrev Ingress := Manifest .ingress

end ReconcileLoop
