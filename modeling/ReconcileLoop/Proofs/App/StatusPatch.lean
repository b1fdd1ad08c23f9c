import ReconcileLoop.App.Templates
import ReconcileLoop.Cluster.Objects
import ReconcileLoop.Proofs.App.Codec
import ReconcileLoop.Proofs.Json.MergePatch

namespace ReconcileLoop

/-! # The status that a merge patch leaves

The cluster is sent the status of an app as a merge patch. All that is unset in a status is written
as `null`, which takes the old value away, but for one member: a cluster address that is unset is
left out. So the status is stored as it was sent, unless the service had such an address before and
has none now; then the old address stays. `App.decode_patched` says what is read back, and
`App.stored_encode` that the JSON of every app is of the form that it is about.
-/

namespace Json

@[simp] theorem mergePatch_ofInt32 (target : Json) (n : Int32) :
    mergePatch target (ofInt32 n) = ofInt32 n := by
  simp [ofInt32, mergePatch]

@[simp] theorem mergePatch_str (target : Json) (text : String) :
    mergePatch target (str text) = str text := by
  simp [mergePatch]

@[simp] theorem mergePatch_arr (target : Json) (items : List Json) :
    mergePatch target (arr items) = arr items := by
  simp [mergePatch]

theorem mergePatch_obj_ne_null (target : Json) (patch : List (String × Json)) :
    mergePatch target (obj patch) ≠ null := by
  simp [mergePatch]

theorem mergePatch_obj_ne_arr (target : Json) (patch : List (String × Json)) (items : List Json) :
    mergePatch target (obj patch) ≠ arr items := by
  simp [mergePatch]

theorem recordMember?_mergePatch (place : Nat) (name : String) (target : Json)
    (patch : List (String × Json)) :
    recordMember? place name (mergePatch target (obj patch)) =
      (mergePatch target (obj patch)).get? name := by
  rw [mergePatch]
  rfl

end Json

namespace DeploymentSummary

theorem encode_eq (summary : DeploymentSummary) : summary.encode =
    .obj [("availableReplicas", .ofInt32 summary.availableReplicas),
      ("readyReplicas", .ofInt32 summary.readyReplicas),
      ("replicas", .ofInt32 summary.replicas),
      ("updatedReplicas", .ofInt32 summary.updatedReplicas)] := by
  simp only [encode, Json.ofOptions, Json.ofMembers, Json.normalizeMembers, Json.insertMember,
    List.filterMap_cons, List.filterMap_nil, Option.map_some, List.foldl_cons, List.foldl_nil,
    String.reduceEq, String.reduceLT, if_false]

theorem decode_mergePatch (target : Json) (summary : DeploymentSummary) :
    decode (Json.mergePatch target summary.encode) = some summary := by
  have form : (Json.mergePatch target summary.encode).isRecord 4 = true := by
    rw [encode_eq, Json.mergePatch]
    rfl
  have member (place : Nat) {name : String} {n : Int32}
      (given : summary.encode.get? name = some (.ofInt32 n)) :
      (Json.mergePatch target summary.encode).required? Json.int32? place name = some n := by
    refine Json.required?_of_member Json.ofInt32 ?_ Json.int32?_ofInt32
    rw [encode_eq, Json.get?] at given
    rw [encode_eq, Json.recordMember?_mergePatch, Json.get?_mergePatch _ _ (by simp), given]
    simp [Json.ofInt32_ne_null]
  have replicas : (Json.mergePatch target summary.encode).required? Json.int32? 0 "replicas" =
      some summary.replicas := member 0 (Json.get?_ofOptions (by simp) (by simp))
  have ready : (Json.mergePatch target summary.encode).required? Json.int32? 1 "readyReplicas" =
      some summary.readyReplicas := member 1 (Json.get?_ofOptions (by simp) (by simp))
  have available : (Json.mergePatch target summary.encode).required? Json.int32? 2
      "availableReplicas" = some summary.availableReplicas :=
    member 2 (Json.get?_ofOptions (by simp) (by simp))
  have updated : (Json.mergePatch target summary.encode).required? Json.int32? 3 "updatedReplicas" =
      some summary.updatedReplicas := member 3 (Json.get?_ofOptions (by simp) (by simp))
  simp [decode, form, replicas, ready, available, updated]

end DeploymentSummary

namespace ServiceSummary

theorem encode_eq (summary : ServiceSummary) : summary.encode =
    .obj ((summary.clusterIp.map fun address => ("clusterIp", Json.str address)).toList ++
      [("loadBalancerIngress", .arr (summary.loadBalancerIngress.map .str))]) := by
  have later : ¬ "loadBalancerIngress" < "clusterIp" := by decide
  obtain ⟨clusterIp, points⟩ := summary
  cases clusterIp <;>
    simp [encode, Json.ofOptions, Json.ofMembers, Json.normalizeMembers, Json.insertMember, later]

theorem decode_eq_some {value : Json} {summary : ServiceSummary}
    (read : decode value = some summary) :
    value.isRecord 2 = true ∧
      value.defaulted? (Json.nullable? Json.str?) none 0 "clusterIp" = some summary.clusterIp := by
  unfold decode at read
  cases form : value.isRecord 2 with
  | false => simp [form, guard] at read
  | true =>
      simp only [form, guard, if_true, Option.bind_eq_bind, Option.bind_eq_some_iff] at read
      obtain ⟨_, _, clusterIp, hasClusterIp, points, _, same⟩ := read
      cases same
      exact ⟨rfl, hasClusterIp⟩

/-- The cluster address that a value shows. -/
def addressIn (value : Json) : Option (Option String) :=
  (Json.obj value.membersOf).defaulted? (Json.nullable? Json.str?) none 0 "clusterIp"

theorem addressIn_of_empty {value : Json} (empty : value.membersOf = []) :
    addressIn value = some none := by
  rw [addressIn, empty]
  rfl

/-- The old cluster address stays if there is no new one. -/
theorem decode_mergePatch {target : Json} {old : Option String} (summary : ServiceSummary)
    (shown : addressIn target = some old) :
    decode (Json.mergePatch target summary.encode) =
      some { summary with clusterIp := summary.clusterIp.or old } := by
  have form : (Json.mergePatch target summary.encode).isRecord 2 = true := by
    rw [encode_eq, Json.mergePatch]
    rfl
  obtain ⟨clusterIp, points⟩ := summary
  have balancer : (Json.mergePatch target (encode ⟨clusterIp, points⟩)).defaulted?
      (Json.listOf? Json.str?) [] 1 "loadBalancerIngress" = some points := by
    refine Json.defaulted?_of_member (fun points => .arr (points.map .str)) ?_
      (Json.listOf?_map .str fun _ => rfl)
    rw [encode_eq, Json.recordMember?_mergePatch, Json.get?_mergePatch]
    · cases clusterIp <;> simp
    · cases clusterIp <;> simp
  have address : (Json.mergePatch target (encode ⟨clusterIp, points⟩)).defaulted?
      (Json.nullable? Json.str?) none 0 "clusterIp" = some (clusterIp.or old) := by
    cases clusterIp with
    | none =>
        have untouched : Json.recordMember? 0 "clusterIp"
            (Json.mergePatch target (encode ⟨none, points⟩)) =
            Json.lookup "clusterIp" target.membersOf := by
          rw [encode_eq, Json.recordMember?_mergePatch, Json.get?_mergePatch _ _ (by simp)]
          simp
        rw [Json.defaulted?, untouched]
        exact shown
    | some address =>
        refine Json.unset?_of_member .str ?_ (fun _ => rfl) (by simp)
        rw [encode_eq, Json.recordMember?_mergePatch, Json.get?_mergePatch _ _ (by simp)]
        simp
  simp [decode, form, address, balancer]

end ServiceSummary

namespace AppStatus

theorem encode_eq (status : AppStatus) : status.encode =
    .obj [("deployment", .ofOption (status.deployment.map DeploymentSummary.encode)),
      ("service", .ofOption (status.service.map ServiceSummary.encode))] := by
  have later : ¬ "service" < "deployment" := by decide
  simp [encode, Json.ofOptions, Json.ofMembers, Json.normalizeMembers, Json.insertMember, later]

theorem decode_eq_some {value : Json} {status : AppStatus} (read : decode value = some status) :
    value.isRecord 2 = true ∧
      value.nullableMember? ServiceSummary.decode 1 "service" = some status.service := by
  unfold decode at read
  cases form : value.isRecord 2 with
  | false => simp [form, guard] at read
  | true =>
      simp only [form, guard, if_true, Option.bind_eq_bind, Option.bind_eq_some_iff] at read
      obtain ⟨_, _, deployment, _, service, hasService, same⟩ := read
      cases same
      exact ⟨rfl, hasService⟩

def clusterIp? (status : AppStatus) : Option String := status.service.bind (·.clusterIp)

/-- A status in which a service without a cluster address has the old one. -/
def keeping (status : AppStatus) (old : Option String) : AppStatus :=
  { status with service := status.service.map fun summary =>
      { summary with clusterIp := summary.clusterIp.or old } }

/-- A patch with a part of a status leaves nothing if the part is unset, or else what the part
leaves of the old one. -/
theorem nullableMember?_mergePatch {α : Type} {read : Json → Option α} {write : α → Json}
    (place : Nat) {name : String} {given left : Option α} (target : Json)
    {patch : List (String × Json)} (distinct : (patch.map Prod.fst).Nodup)
    (member : Json.lookup name patch = some (.ofOption (given.map write)))
    (shows : ∀ a, write a ≠ .null)
    (reads : ∀ a, given = some a →
      Json.nullable? read
        (Json.mergePatch ((Json.lookup name target.membersOf).getD .null) (write a)) = some left)
    (unset : given = none → left = none) :
    (Json.mergePatch target (.obj patch)).nullableMember? read place name = some left := by
  have found := Json.get?_mergePatch target patch distinct name
  rw [member] at found
  cases given with
  | none =>
      rw [unset rfl]
      rw [Json.mergePatch] at found ⊢
      exact Json.nullableMember?_of_none found
  | some a =>
      have held : (Json.mergePatch target (.obj patch)).recordMember? place name =
          some (Json.mergePatch ((Json.lookup name target.membersOf).getD .null) (write a)) := by
        rw [Json.recordMember?_mergePatch, found]
        exact if_neg (shows a)
      rw [Json.nullableMember?_of_some held]
      exact reads a rfl

theorem decode_mergePatch {target : Json} {old : Option String} (status : AppStatus)
    (shown : ServiceSummary.addressIn
      ((Json.lookup "service" target.membersOf).getD .null) = some old) :
    decode (Json.mergePatch target status.encode) = some (status.keeping old) := by
  have form : (Json.mergePatch target status.encode).isRecord 2 = true := by
    rw [encode_eq, Json.mergePatch]
    rfl
  have deployment : (Json.mergePatch target status.encode).nullableMember?
      DeploymentSummary.decode 0 "deployment" = some status.deployment := by
    rw [encode_eq]
    refine nullableMember?_mergePatch 0 target (by simp) rfl
      (fun _ => Json.ofOptions_ne_null _) ?_ (fun unset => unset)
    intro summary given
    rw [Json.nullable?_of_ne_null, DeploymentSummary.decode_mergePatch, given]
    · rfl
    · rw [DeploymentSummary.encode_eq]
      exact Json.mergePatch_obj_ne_null _ _
  have service : (Json.mergePatch target status.encode).nullableMember?
      ServiceSummary.decode 1 "service" = some (status.keeping old).service := by
    rw [encode_eq]
    refine nullableMember?_mergePatch 1 target (by simp) rfl
      (fun _ => Json.ofOptions_ne_null _) ?_ ?_
    · intro summary given
      rw [Json.nullable?_of_ne_null, ServiceSummary.decode_mergePatch summary shown]
      · simp [keeping, given]
      · rw [ServiceSummary.encode_eq]
        exact Json.mergePatch_obj_ne_null _ _
    · intro unset
      simp [keeping, unset]
  simp only [decode, form, deployment, service]
  rfl

/-- The status is as it was sent unless an old cluster address fills in for a missing one. -/
theorem keeping_eq_self_iff (status : AppStatus) (old : Option String) :
    status.keeping old = status ↔
      ¬∃ address summary, old = some address ∧ status.service = some summary ∧
        summary.clusterIp = none := by
  obtain ⟨deployment, service⟩ := status
  cases service with
  | none => simp [keeping]
  | some summary =>
      obtain ⟨clusterIp, points⟩ := summary
      cases clusterIp <;> cases old <;> simp [keeping]

end AppStatus

namespace App

/-- The JSON of an app in the cluster. What has members is written with their names. -/
structure Stored (stored : Json) (app : App) : Prop where
  decoded : decode stored = some app
  object : ∀ items, stored ≠ .arr items
  status : ∀ items, stored.get? "status" ≠ some (.arr items)
  service : ∀ status items, stored.get? "status" = some status →
    status.get? "service" ≠ some (.arr items)

theorem decode_eq_some {value : Json} {app : App} (read : decode value = some app) :
    value.isRecord 3 = true ∧
      value.required? ObjectMeta.decode 0 "metadata" = some app.metadata ∧
      value.required? AppSpec.decode 1 "spec" = some app.spec ∧
      value.nullableMember? AppStatus.decode 2 "status" = some app.status := by
  unfold decode at read
  cases form : value.isRecord 3 with
  | false => simp [form, guard] at read
  | true =>
      simp only [form, guard, if_true, Option.bind_eq_bind, Option.bind_eq_some_iff] at read
      obtain ⟨_, _, metadata, hasMetadata, spec, hasSpec, status, hasStatus, same⟩ := read
      cases same
      exact ⟨rfl, hasMetadata, hasSpec, hasStatus⟩

end App

namespace Json

theorem nullableMember?_cases {α : Type} {read : Json → Option α} {place size : Nat} {name : String}
    {members : List (String × Json)} {given : Option α}
    (found : (obj members).nullableMember? read place name = some given)
    (record : ∀ value a, read value = some a → value.isRecord size = true)
    (object : ∀ items, lookup name members ≠ some (arr items)) :
    (given = none ∧ membersOf ((lookup name members).getD null) = []) ∨
      ∃ inner a, lookup name members = some (obj inner) ∧ given = some a ∧
        read (obj inner) = some a := by
  cases held : lookup name members with
  | none =>
      rw [nullableMember?_of_none held] at found
      cases found
      exact .inl ⟨rfl, rfl⟩
  | some value =>
      have shown : (obj members).recordMember? place name = some value := held
      rw [nullableMember?_of_some shown] at found
      by_cases unset : value = null
      · subst unset
        cases found
        exact .inl ⟨rfl, rfl⟩
      · rw [nullable?_of_ne_null unset] at found
        obtain ⟨a, reads, same⟩ := Option.map_eq_some_iff.mp found
        have form := record value a reads
        cases value with
        | obj inner => exact .inr ⟨inner, a, rfl, same.symm, reads⟩
        | arr items => exact absurd held (object items)
        | null => contradiction
        | bool _ => contradiction
        | int _ => contradiction
        | dec _ _ => contradiction
        | str _ => contradiction

end Json

namespace App

theorem Stored.members {stored : Json} {app : App} (kept : Stored stored app) :
    ∃ members, stored = .obj members := by
  have form := (decode_eq_some kept.decoded).1
  cases stored with
  | obj members => exact ⟨members, rfl⟩
  | arr items => exact absurd rfl (kept.object items)
  | null => contradiction
  | bool _ => contradiction
  | int _ => contradiction
  | dec _ _ => contradiction
  | str _ => contradiction

theorem Stored.address {stored : Json} {app : App} (kept : Stored stored app) :
    ServiceSummary.addressIn ((Json.lookup "service"
      ((stored.get? "status").getD .null).membersOf).getD .null) =
      some (Primary.status app).clusterIp? := by
  obtain ⟨members, rfl⟩ := kept.members
  obtain ⟨_, _, _, hasStatus⟩ := decode_eq_some kept.decoded
  rcases Json.nullableMember?_cases hasStatus
    (fun _ _ reads => (AppStatus.decode_eq_some reads).1) kept.status with
    ⟨unset, empty⟩ | ⟨inner, status, held, given, reads⟩
  · have nothing : ((Json.obj members).get? "status").getD .null =
        (Json.lookup "status" members).getD .null := rfl
    have default : Primary.status app = {} := by simp [Primary.status, unset]
    rw [nothing, empty, default]
    exact ServiceSummary.addressIn_of_empty rfl
  · have present : ((Json.obj members).get? "status").getD .null = .obj inner := by
      rw [Json.get?, held]
      rfl
    have own : Primary.status app = status := by simp [Primary.status, given]
    rw [present, own]
    rcases Json.nullableMember?_cases (AppStatus.decode_eq_some reads).2
      (fun _ _ reads => (ServiceSummary.decode_eq_some reads).1)
      (fun items => kept.service (.obj inner) items held) with
      ⟨unset, empty⟩ | ⟨points, summary, shown, has, readsSummary⟩
    · rw [AppStatus.clusterIp?, unset]
      exact ServiceSummary.addressIn_of_empty empty
    · have reported : (Json.lookup "service" (Json.obj inner).membersOf).getD .null =
          .obj points := by
        rw [Json.membersOf, Json.members?, Option.getD_some, shown]
        rfl
      rw [AppStatus.clusterIp?, has, reported]
      exact (ServiceSummary.decode_eq_some readsSummary).2

theorem stored_encode (app : App) : Stored app.encode app := by
  have status : app.encode.get? "status" = app.status.map AppStatus.encode :=
    Json.get?_ofOptions (by simp) (by simp)
  refine ⟨decode_encode app, fun items => ?_, fun items => ?_, fun held items present => ?_⟩
  · simp [encode, Json.ofOptions, Json.ofMembers]
  · rw [status]
    cases app.status with
    | none => simp
    | some status => simp [AppStatus.encode_eq]
  · rw [status] at present
    obtain ⟨given, _, rfl⟩ := Option.map_eq_some_iff.mp present
    have service : given.encode.get? "service" =
        some (.ofOption (given.service.map ServiceSummary.encode)) :=
      Json.get?_ofOptions (by simp) (by simp)
    rw [service]
    cases given.service with
    | none => simp [Json.ofOption]
    | some summary => simp [Json.ofOption, ServiceSummary.encode_eq]

theorem statusPatch_setStatus (app : App) (status : AppStatus) :
    Cluster.statusPatch (Primary.setStatus app status) = .obj [("status", status.encode)] := by
  rw [Cluster.statusPatch, encodedStatus_eq]
  rfl

def patched (stored : Json) (app : App) (status : AppStatus) : Json :=
  Json.mergePatch stored (Cluster.statusPatch (Primary.setStatus app status))

theorem get?_patched (stored : Json) (app : App) (status : AppStatus) (name : String) :
    (patched stored app status).get? name =
      if name = "status" then
        some (Json.mergePatch ((Json.lookup "status" stored.membersOf).getD .null) status.encode)
      else Json.lookup name stored.membersOf := by
  rw [patched, statusPatch_setStatus, Json.get?_mergePatch _ _ (by simp), Json.lookup_cons]
  by_cases same : name = "status"
  · subst same
    rw [if_pos rfl, if_pos rfl]
    exact if_neg (Json.ofOptions_ne_null _)
  · rw [if_neg same, if_neg same]
    rfl

/-- The app that is read back has the status that was sent, but with the old cluster address if
there is no new one. -/
theorem decode_patched {stored : Json} {app : App} (kept : Stored stored app) (status : AppStatus) :
    decode (patched stored app status) =
      some { app with status := some (status.keeping (Primary.status app).clusterIp?) } := by
  obtain ⟨members, rfl⟩ := kept.members
  obtain ⟨_, hasMetadata, hasSpec, _⟩ := decode_eq_some kept.decoded
  have form : (patched (.obj members) app status).isRecord 3 = true := by
    rw [patched, statusPatch_setStatus, Json.mergePatch]
    rfl
  have member (place : Nat) (name : String) :
      (patched (.obj members) app status).recordMember? place name =
        (patched (.obj members) app status).get? name := by
    rw [patched, statusPatch_setStatus]
    exact Json.recordMember?_mergePatch place name _ _
  have metadata : (patched (.obj members) app status).required? ObjectMeta.decode 0 "metadata" =
      some app.metadata := by
    rw [Json.required?, member, get?_patched, if_neg (by simp)]
    exact hasMetadata
  have spec : (patched (.obj members) app status).required? AppSpec.decode 1 "spec" =
      some app.spec := by
    rw [Json.required?, member, get?_patched, if_neg (by simp)]
    exact hasSpec
  have shown : ServiceSummary.addressIn ((Json.lookup "service"
      ((Json.lookup "status" (Json.obj members).membersOf).getD .null).membersOf).getD .null) =
      some (Primary.status app).clusterIp? := kept.address
  have held := member 2 "status"
  rw [get?_patched, if_pos rfl] at held
  have written : (patched (.obj members) app status).nullableMember? AppStatus.decode 2 "status" =
      some (some (status.keeping (Primary.status app).clusterIp?)) := by
    rw [Json.nullableMember?_of_some held, Json.nullable?_of_ne_null,
      AppStatus.decode_mergePatch status shown]
    · rfl
    · rw [AppStatus.encode_eq]
      exact Json.mergePatch_obj_ne_null _ _
  simp only [decode, form, metadata, spec, written]
  rfl

theorem stored_patched {stored : Json} {app : App} (kept : Stored stored app) (status : AppStatus) :
    Stored (patched stored app status)
      { app with status := some (status.keeping (Primary.status app).clusterIp?) } := by
  have service (target : Json) (items : List Json) :
      (Json.mergePatch target status.encode).get? "service" ≠ some (.arr items) := by
    rw [AppStatus.encode_eq, Json.get?_mergePatch _ _ (by simp)]
    cases status.service with
    | none => simp [Json.ofOption]
    | some summary =>
        simp [Json.ofOption, ServiceSummary.encode_eq, Json.mergePatch]
  refine ⟨decode_patched kept status, fun items => ?_, fun items => ?_,
    fun held items present => ?_⟩
  · rw [patched, statusPatch_setStatus]
    exact Json.mergePatch_obj_ne_arr _ _ items
  · rw [get?_patched, if_pos rfl, AppStatus.encode_eq, Ne, Option.some.injEq]
    exact Json.mergePatch_obj_ne_arr _ _ items
  · rw [get?_patched, if_pos rfl] at present
    cases present
    exact service _ items

theorem body_requestTo {kind : Kind} {verb : Verb} {space? : Option String} {name part : String}
    {body : Option Json} {request : Request}
    (made : Cluster.requestTo kind verb space? name part body = .ok request) :
    request.body = body := by
  unfold Cluster.requestTo at made
  split at made
  · cases made
  · unfold Request.ofAddress at made
    split at made
    · cases made
      rfl
    · cases made

theorem body_updateStatus {app : App} {call : Call App}
    (called : Cluster.updateStatus app = .ok call) :
    call.request.body = some (Cluster.statusPatch app) := by
  unfold Cluster.updateStatus at called
  cases made : Cluster.requestTo (Resource.kind App) .patch (Resource.metadata app).space
      ((Resource.metadata app).name.getD "") "/status" (some (Cluster.statusPatch app)) with
  | error error =>
      simp only [made] at called
      cases called
  | ok request =>
      simp only [made] at called
      cases called
      exact body_requestTo made

/-- The status of an app in the cluster after it was sent a new one: the parts that are gone are
gone there too, but for a cluster address that the service no longer has. Then, and only then, what
is read back is not what was sent. The store in memory keeps every status as it was sent. -/
theorem status_patched_iff {stored : Json} {app : App} (kept : Stored stored app)
    (status : AppStatus) :
    (∀ call, Cluster.updateStatus (Primary.setStatus app status) = .ok call →
      call.request.body = some (Cluster.statusPatch (Primary.setStatus app status))) ∧
    ∃ after, decode (Json.mergePatch stored
          (Cluster.statusPatch (Primary.setStatus app status))) = some after ∧
      Stored (Json.mergePatch stored (Cluster.statusPatch (Primary.setStatus app status))) after ∧
      after.metadata = app.metadata ∧ after.spec = app.spec ∧
      Primary.status after = status.keeping (Primary.status app).clusterIp? ∧
      (Primary.status after = status ↔
        ¬∃ address summary, (Primary.status app).clusterIp? = some address ∧
          status.service = some summary ∧ summary.clusterIp = none) ∧
      Resource.replaceStatus app (Primary.setStatus app status) =
        some (Primary.setStatus app status) := by
  refine ⟨fun call => body_updateStatus, _, decode_patched kept status, stored_patched kept status,
    rfl, rfl, rfl, status.keeping_eq_self_iff _, ?_⟩
  rw [replaceStatus_eq]
  rfl

def addressed : App :=
  { metadata := { name := some "web", space := some "default" }
    status := some { service := some { clusterIp := some "10.0.0.1" } } }

theorem status_patched_of_gone :
    Stored addressed.encode addressed ∧ ∃ after : App,
      decode (Json.mergePatch addressed.encode
        (Cluster.statusPatch (Primary.setStatus addressed {}))) = some after ∧
      Primary.status after = {} := by
  have kept := stored_encode addressed
  obtain ⟨_, after, read, _, _, _, _, exactly, _⟩ := status_patched_iff kept {}
  exact ⟨kept, after, read, exactly.mpr (by simp)⟩

/-- A service that loses its cluster address keeps it in the status. -/
theorem not_status_patched_of_headless :
    ¬∀ (app : App) (status : AppStatus), ∃ after : App,
      decode (Json.mergePatch app.encode
        (Cluster.statusPatch (Primary.setStatus app status))) = some after ∧
      Primary.status after = status := by
  intro claimed
  obtain ⟨after, read, same⟩ := claimed addressed { service := some {} }
  have kept := decode_patched (stored_encode addressed) { service := some {} }
  rw [patched, read] at kept
  cases kept
  have address := congrArg AppStatus.clusterIp? same
  simp [Primary.status, AppStatus.keeping, AppStatus.clusterIp?, addressed] at address

end App

end ReconcileLoop
