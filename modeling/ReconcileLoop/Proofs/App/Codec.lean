import ReconcileLoop.App.Basic
import ReconcileLoop.Proofs.Json.Reading

namespace ReconcileLoop

/-! # Reading an app back

An app that is written as JSON reads back as itself, with all its metadata, whatever type that has
(`LawfulObjectMeta`).
-/

namespace TextMap

theorem ofMembers?_map (entries : List (String × String)) :
    ofMembers? (entries.map fun entry => (entry.1, .str entry.2)) = some entries := by
  induction entries with
  | nil => rfl
  | cons entry rest ih =>
      rw [List.map_cons, ofMembers?, ih]
      rfl

theorem ofList_toList (texts : TextMap) : Std.ExtTreeMap.ofList texts.toList = texts := by
  apply Std.ExtTreeMap.ext_getElem?
  intro name
  cases found : texts[name]? with
  | some value =>
      exact Std.ExtTreeMap.getElem?_ofList_of_mem Std.ReflCmp.compare_self
        Std.ExtTreeMap.distinct_keys_toList
        (Std.ExtTreeMap.mem_toList_iff_getElem?_eq_some.mpr found)
  | none =>
      refine Std.ExtTreeMap.getElem?_ofList_of_contains_eq_false ?_
      rw [Std.ExtTreeMap.map_fst_toList_eq_keys]
      simpa using found

theorem ofJson?_toJson (texts : TextMap) : ofJson? texts.toJson = some texts := by
  rw [toJson, ofJson?, ofMembers?_map, Option.map_some, ofList_toList]

end TextMap

theorem Timestamp.ofJson?_toJson (time : Timestamp) : ofJson? time.toJson = some time := by
  rw [toJson, ofJson?, dif_pos time.written]

namespace OwnerReference

theorem ofJson?_toJson (reference : OwnerReference) :
    ofJson? reference.toJson = some reference := by
  have form : reference.toJson.members?.isSome = true := rfl
  have apiVersion : reference.toJson.optional? Json.str? "apiVersion" =
      some (some reference.apiVersion) :=
    Json.optional?_str (Json.get?_ofOptions (by simp) (by simp))
  have kind : reference.toJson.optional? Json.str? "kind" = some (some reference.kind) :=
    Json.optional?_str (Json.get?_ofOptions (by simp) (by simp))
  have name : reference.toJson.optional? Json.str? "name" = some (some reference.name) :=
    Json.optional?_str (Json.get?_ofOptions (by simp) (by simp))
  have uid : reference.toJson.optional? Json.str? "uid" = some (some reference.uid) :=
    Json.optional?_str (Json.get?_ofOptions (by simp) (by simp))
  have controller :
      reference.toJson.optional? Json.bool? "controller" = some reference.controller :=
    Json.optional?_bool (Json.get?_ofOptions (by simp) (by simp))
  have blocks : reference.toJson.optional? Json.bool? "blockOwnerDeletion" =
      some reference.blockOwnerDeletion :=
    Json.optional?_bool (Json.get?_ofOptions (by simp) (by simp))
  simp [ofJson?, form, apiVersion, kind, name, uid, controller, blocks]

theorem listOfJson?_map (references : List OwnerReference) :
    listOfJson? (.arr (references.map toJson)) = some references :=
  Json.mapM_map toJson ofJson?_toJson references

end OwnerReference

namespace Metadata

theorem ofJson?_toJson (metadata : Metadata) : ofJson? metadata.toJson = some metadata := by
  have form : metadata.toJson.members?.isSome = true := rfl
  have name : metadata.toJson.optional? Json.str? "name" = some metadata.name :=
    Json.optional?_str (Json.get?_ofOptions (by simp) (by simp))
  have space : metadata.toJson.optional? Json.str? "namespace" = some metadata.space :=
    Json.optional?_str (Json.get?_ofOptions (by simp) (by simp))
  have uid : metadata.toJson.optional? Json.str? "uid" = some metadata.uid :=
    Json.optional?_str (Json.get?_ofOptions (by simp) (by simp))
  have version :
      metadata.toJson.optional? Json.str? "resourceVersion" = some metadata.resourceVersion :=
    Json.optional?_str (Json.get?_ofOptions (by simp) (by simp))
  have deletion : metadata.toJson.optional? Timestamp.ofJson? "deletionTimestamp" =
      some metadata.deletionTimestamp :=
    Json.optional?_of_get? Timestamp.toJson (Json.get?_ofOptions (by simp) (by simp))
      Timestamp.ofJson?_toJson (by simp [Timestamp.toJson])
  have labels : metadata.toJson.optional? TextMap.ofJson? "labels" = some metadata.labels :=
    Json.optional?_of_get? TextMap.toJson (Json.get?_ofOptions (by simp) (by simp))
      TextMap.ofJson?_toJson (by simp [TextMap.toJson])
  have annotations :
      metadata.toJson.optional? TextMap.ofJson? "annotations" = some metadata.annotations :=
    Json.optional?_of_get? TextMap.toJson (Json.get?_ofOptions (by simp) (by simp))
      TextMap.ofJson?_toJson (by simp [TextMap.toJson])
  have owners : metadata.toJson.optional? OwnerReference.listOfJson? "ownerReferences" =
      some metadata.ownerReferences :=
    Json.optional?_of_get? (fun references => .arr (references.map OwnerReference.toJson))
      (Json.get?_ofOptions (by simp) (by simp)) OwnerReference.listOfJson?_map (by simp)
  simp [ofJson?, form, name, space, uid, version, labels, annotations, owners, deletion]

end Metadata

instance : LawfulObjectMeta Metadata where
  update_view _ := rfl
  update_update _ _ _ := rfl
  decode_encode := Metadata.ofJson?_toJson

theorem Json.ofInt32_ne_null (n : Int32) : Json.ofInt32 n ≠ .null := by
  simp [ofInt32]

namespace DeploymentTemplate

theorem decode_encode (template : DeploymentTemplate) : decode template.encode = some template := by
  have form : template.encode.isRecord 3 = true := rfl
  have name : template.encode.defaulted? Json.str? "" 0 "name" = some template.name :=
    Json.defaulted?_of_member .str (Json.get?_ofOptions (by simp) (by simp)) fun _ => rfl
  have image : template.encode.defaulted? Json.str? "" 1 "image" = some template.image :=
    Json.defaulted?_of_member .str (Json.get?_ofOptions (by simp) (by simp)) fun _ => rfl
  have replicas : template.encode.defaulted? (Json.nullable? Json.int32?) none 2 "replicas" =
      some template.replicas :=
    Json.unset?_of_member Json.ofInt32 (Json.get?_ofOptions (by simp) (by simp)) Json.int32?_ofInt32
      Json.ofInt32_ne_null
  simp [decode, form, name, image, replicas]

end DeploymentTemplate

namespace ServiceTemplate

theorem decode_encode (template : ServiceTemplate) : decode template.encode = some template := by
  have form : template.encode.isRecord 2 = true := rfl
  have name : template.encode.defaulted? Json.str? "" 0 "name" = some template.name :=
    Json.defaulted?_of_member .str (Json.get?_ofOptions (by simp) (by simp)) fun _ => rfl
  have port : template.encode.defaulted? (Json.nullable? Json.int32?) none 1 "port" =
      some template.port :=
    Json.unset?_of_member Json.ofInt32 (Json.get?_ofOptions (by simp) (by simp)) Json.int32?_ofInt32
      Json.ofInt32_ne_null
  simp [decode, form, name, port]

end ServiceTemplate

namespace AppSpec

theorem decode_encode (spec : AppSpec) : decode spec.encode = some spec := by
  have form : spec.encode.isRecord 2 = true := rfl
  have deployment : spec.encode.defaulted? DeploymentTemplate.decode {} 0 "deploymentTemplate" =
      some spec.deploymentTemplate :=
    Json.defaulted?_of_member DeploymentTemplate.encode (Json.get?_ofOptions (by simp) (by simp))
      DeploymentTemplate.decode_encode
  have service : spec.encode.defaulted? ServiceTemplate.decode {} 1 "serviceTemplate" =
      some spec.serviceTemplate :=
    Json.defaulted?_of_member ServiceTemplate.encode (Json.get?_ofOptions (by simp) (by simp))
      ServiceTemplate.decode_encode
  simp [decode, form, deployment, service]

end AppSpec

namespace DeploymentSummary

theorem decode_encode (summary : DeploymentSummary) : decode summary.encode = some summary := by
  have form : summary.encode.isRecord 4 = true := rfl
  have replicas : summary.encode.required? Json.int32? 0 "replicas" = some summary.replicas :=
    Json.required?_of_member Json.ofInt32 (Json.get?_ofOptions (by simp) (by simp))
      Json.int32?_ofInt32
  have ready : summary.encode.required? Json.int32? 1 "readyReplicas" =
      some summary.readyReplicas :=
    Json.required?_of_member Json.ofInt32 (Json.get?_ofOptions (by simp) (by simp))
      Json.int32?_ofInt32
  have available : summary.encode.required? Json.int32? 2 "availableReplicas" =
      some summary.availableReplicas :=
    Json.required?_of_member Json.ofInt32 (Json.get?_ofOptions (by simp) (by simp))
      Json.int32?_ofInt32
  have updated : summary.encode.required? Json.int32? 3 "updatedReplicas" =
      some summary.updatedReplicas :=
    Json.required?_of_member Json.ofInt32 (Json.get?_ofOptions (by simp) (by simp))
      Json.int32?_ofInt32
  simp [decode, form, replicas, ready, available, updated]

end DeploymentSummary

namespace ServiceSummary

theorem decode_encode (summary : ServiceSummary) : decode summary.encode = some summary := by
  have form : summary.encode.isRecord 2 = true := rfl
  have clusterIp : summary.encode.defaulted? (Json.nullable? Json.str?) none 0 "clusterIp" =
      some summary.clusterIp :=
    Json.unset?_of_member .str (Json.get?_ofOptions (by simp) (by simp)) (fun _ => rfl)
      (by simp)
  have points : summary.encode.defaulted? (Json.listOf? Json.str?) [] 1 "loadBalancerIngress" =
      some summary.loadBalancerIngress :=
    Json.defaulted?_of_member (fun points => .arr (points.map .str))
      (Json.get?_ofOptions (by simp) (by simp)) (Json.listOf?_map .str fun _ => rfl)
  simp [decode, form, clusterIp, points]

end ServiceSummary

namespace AppStatus

theorem decode_encode (status : AppStatus) : decode status.encode = some status := by
  have form : status.encode.isRecord 2 = true := rfl
  have deployment : status.encode.nullableMember? DeploymentSummary.decode 0 "deployment" =
      some status.deployment := by
    have held : status.encode.recordMember? 0 "deployment" =
        some (.ofOption (status.deployment.map DeploymentSummary.encode)) :=
      Json.get?_ofOptions (by simp) (by simp)
    rw [Json.nullableMember?_of_some held]
    exact Json.nullable?_ofOption _ DeploymentSummary.decode_encode
      (fun _ => Json.ofOptions_ne_null _) _
  have service : status.encode.nullableMember? ServiceSummary.decode 1 "service" =
      some status.service := by
    have held : status.encode.recordMember? 1 "service" =
        some (.ofOption (status.service.map ServiceSummary.encode)) :=
      Json.get?_ofOptions (by simp) (by simp)
    rw [Json.nullableMember?_of_some held]
    exact Json.nullable?_ofOption _ ServiceSummary.decode_encode
      (fun _ => Json.ofOptions_ne_null _) _
  simp [decode, form, deployment, service]

end AppStatus

namespace App

variable {μ : Type} [ObjectMeta μ]

theorem encodedStatus_eq (app : App μ) :
    Resource.encodedStatus app = .ofOption (app.status.map AppStatus.encode) := by
  have held : app.encode.get? "status" = app.status.map AppStatus.encode :=
    Json.get?_ofOptions (by simp) (by simp)
  exact congrArg (·.getD .null) held

variable [LawfulObjectMeta μ]

theorem decode_encode (app : App μ) : decode app.encode = some app := by
  have form : app.encode.isRecord 3 = true := rfl
  have metadata : app.encode.required? ObjectMeta.decode 0 "metadata" = some app.metadata :=
    Json.required?_of_member ObjectMeta.encode (Json.get?_ofOptions (by simp) (by simp))
      LawfulObjectMeta.decode_encode
  have spec : app.encode.required? AppSpec.decode 1 "spec" = some app.spec :=
    Json.required?_of_member AppSpec.encode (Json.get?_ofOptions (by simp) (by simp))
      AppSpec.decode_encode
  have held : app.encode.recordMember? 2 "status" = app.status.map AppStatus.encode :=
    Json.get?_ofOptions (by simp) (by simp)
  have status : app.encode.nullableMember? AppStatus.decode 2 "status" = some app.status := by
    cases given : app.status with
    | none =>
        rw [given] at held
        exact Json.nullableMember?_of_none held
    | some status =>
        rw [given] at held
        rw [Json.nullableMember?_of_some held]
        exact Json.nullable?_ofOption _ AppStatus.decode_encode
          (fun _ => Json.ofOptions_ne_null _) (some status)
  simp [decode, form, metadata, spec, status]

theorem replaceStatus_eq (current given : App μ) :
    Resource.replaceStatus current given = some { current with status := given.status } := by
  obtain ⟨members, written⟩ : ∃ members, current.encode = .obj members := ⟨_, rfl⟩
  have same : Resource.encode current = .obj members := written
  rw [Resource.replaceStatus, same]
  change decode (.obj (Json.insertMember "status" (Resource.encodedStatus given) members)) = _
  generalize replaced :
    Json.obj (Json.insertMember "status" (Resource.encodedStatus given) members) = value
  have member (place : Nat) (name : String) : value.recordMember? place name =
      if name = "status" then some (Resource.encodedStatus given)
      else current.encode.recordMember? place name := by
    rw [← replaced, written]
    exact Json.lookup_insertMember name "status" _ members
  have form : value.isRecord 3 = true := by rw [← replaced]; rfl
  have metadata : value.required? ObjectMeta.decode 0 "metadata" = some current.metadata := by
    refine Json.required?_of_member ObjectMeta.encode ?_ LawfulObjectMeta.decode_encode
    rw [member]
    exact Json.get?_ofOptions (by simp) (by simp)
  have spec : value.required? AppSpec.decode 1 "spec" = some current.spec := by
    refine Json.required?_of_member AppSpec.encode ?_ AppSpec.decode_encode
    rw [member]
    exact Json.get?_ofOptions (by simp) (by simp)
  have status : value.nullableMember? AppStatus.decode 2 "status" = some given.status := by
    rw [Json.nullableMember?_of_some (member 2 "status"), encodedStatus_eq]
    exact Json.nullable?_ofOption _ AppStatus.decode_encode
      (fun _ => Json.ofOptions_ne_null _) _
  simp [decode, form, metadata, spec, status]

end App

end ReconcileLoop
