import ReconcileLoop.Cluster.Answer
import ReconcileLoop.Watch.Delta

namespace ReconcileLoop.Cluster

/-! # Watching a kind in the cluster

A watch lists the objects page by page, and then asks again and again for what has changed since a
version. Each failure is reported as one that may pass, and gone over: a listing that fails is begun
anew, and so it is when the cluster has forgotten the version; otherwise the watch goes on from
where it was.
-/

inductive Stage where
  /-- A page of the listing, the first one if there is nothing to continue from. -/
  | list (from? : Option String)
  | watch (version : String)
deriving DecidableEq, Repr, Inhabited

structure Page (α : Type) where
  items : List α
  /-- Where the next page continues; there is none without it. -/
  next? : Option String
  version? : Option String

inductive Report (α : Type) where
  | present (object : α)
  | deleted (object : α)
  /-- Nothing has changed up to a version. -/
  | bookmark (version : String)
  | refused (refusal : Refusal)

variable {α : Type} [Resource α]

/-- A text that counts as unset when it is empty. -/
def nonempty (text? : Option String) : Option String := text?.filter (· ≠ "")

def Page.ofJson? (value : Json) : Option (Page α) := do
  guard value.members?.isSome
  let items ← (← value.get? "items").nullable? (Json.listOf? Resource.decode)
  let metadata := (value.get? "metadata").getD (.obj [])
  guard metadata.members?.isSome
  let next? ← metadata.optional? Json.str? "continue"
  let version? ← metadata.optional? Json.str? "resourceVersion"
  return { items := items.getD [], next? := nonempty next?, version? := nonempty version? }

def bookmark? (value : Json) : Option String := do
  guard value.members?.isSome
  let _ ← value.required? Json.str? 0 "apiVersion"
  let _ ← value.required? Json.str? 0 "kind"
  let metadata ← value.get? "metadata"
  guard (metadata.isRecord 2)
  let version ← metadata.required? Json.str? 0 "resourceVersion"
  let _ ← metadata.defaulted? TextMap.ofJson? ∅ 1 "annotations"
  return version

def Report.ofJson? (value : Json) : Option (Report α) := do
  guard (value.isRecord 2)
  let type ← value.required? Json.str? 0 "type"
  let object ← value.recordMember? 1 "object"
  match type with
  | "ADDED" => (Resource.decode object).map .present
  | "MODIFIED" => (Resource.decode object).map .present
  | "DELETED" => (Resource.decode object).map .deleted
  | "BOOKMARK" => (bookmark? object).map .bookmark
  | "ERROR" => (Refusal.ofJson? object).map .refused
  | _ => none

namespace Stage

def verb : Stage → Verb
  | list _ => .list
  | watch _ => .watch

/-- A failure after which everything is listed anew. -/
def beginAnew (reason : String) : List (Except StoreError (Delta α)) × Stage :=
  ([.error (.transient reason), .ok .init], list none)

/-- Takes a page of the listing. The last page has to tell the version. -/
def takePage (page : Page α) : List (Except StoreError (Delta α)) × Stage :=
  let listed := page.items.map fun object => .ok (.initApplied object)
  match page.next?, page.version? with
  | some next, _ => (listed, list (some next))
  | none, some version => (listed ++ [.ok .initDone], watch version)
  | none, none => beginAnew "a listing without a version"

/-- Takes the lines that tell what has changed since a version. A line that breaks off is skipped, and
so is an empty one. -/
def takeLines (version : String) : List String → List (Except StoreError (Delta α)) × Stage
  | [] => ([], watch version)
  | line :: rest =>
      let also (item : Except StoreError (Delta α)) (version : String) :=
        let (items, stage) := takeLines version rest
        (item :: items, stage)
      let changed (object : α) (delta : Delta α) :=
        match nonempty (Resource.metadata object).resourceVersion with
        | some version => also (.ok delta) version
        | none => beginAnew "a change without a version"
      match Json.parse line with
      | .error .unfinished => takeLines version rest
      | .error .malformed => also (.error (.transient "an unreadable line")) version
      | .ok value =>
          match Report.ofJson? value with
          | some (.present object) => changed object (.applied object)
          | some (.deleted object) => changed object (.deleted object)
          | some (.bookmark version) => takeLines version rest
          | some (.refused refusal) =>
              if refusal.code = 410 then beginAnew refusal.message
              else also (.error (.transient refusal.message)) version
          | none => also (.error (.transient "an unreadable line")) version

/-- Takes an answer: what it adds to the stream, and what is asked for next. -/
def take (answer : Answer) : Stage → List (Except StoreError (Delta α)) × Stage
  | list _ =>
      match answer.read Page.ofJson? with
      | .ok page => takePage page
      | .error error => beginAnew error.message
  | watch version => takeLines version (answer.body.splitOn "\n")

end Stage

structure Watched (α : Type) where
  items : List (Except StoreError (Delta α))
  requests : List Request
  /-- Whether there are fewer, because a request was not answered. -/
  waits : Bool

/-- Asks for what a stage is about until enough is there, or no answer comes any more. -/
def ask (path : String) (wanted : Nat) (items : List (Except StoreError (Delta α))) (stage : Stage)
    (requests : List Request) (answers : List Answer) : Watched α :=
  if wanted ≤ items.length then ⟨items.take wanted, requests, false⟩
  else
    let requests := requests ++ [{ verb := stage.verb, path }]
    match answers with
    | [] => ⟨items, requests, true⟩
    | answer :: rest =>
        let (more, next) := stage.take answer
        ask path wanted (items ++ more) next requests rest

/-- The first items of a watch and the requests made for them, when the cluster gives these answers
one after the other and then falls silent. A watch whose address is unusable fails forever. -/
def watched (α : Type) [Resource α] (space? : Option String) (wanted : Nat)
    (answers : List Answer) : Watched α :=
  match Request.ofAddress .list ((Resource.kind α).address space?) none with
  | .ok request => ask request.path wanted [.ok .init] (.list none) [] answers
  | .error error =>
      ⟨((List.replicate wanted [.ok .init, .error error]).flatten).take wanted, [], false⟩

end ReconcileLoop.Cluster
