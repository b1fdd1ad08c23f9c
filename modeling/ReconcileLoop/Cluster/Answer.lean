import ReconcileLoop.Cluster.Request
import ReconcileLoop.Json.Parser
import ReconcileLoop.Json.Record

namespace ReconcileLoop

/-! # Answers of the cluster

An answer has a status and a text. A status from 400 on refuses the request, and the text should say
why; an answer that refuses nothing and cannot be read is a failure that may pass.
-/

structure Answer where
  status : Nat
  body : String
deriving DecidableEq, Repr, Inhabited

/-- Why the cluster refuses a request. -/
structure Refusal where
  message : String
  reason : String
  code : Nat
deriving DecidableEq, Repr, Inhabited

namespace Json

/-- A whole number of 16 bits that is not negative. -/
def uint16? (value : Json) : Option Nat := value.nat?.filter (· < UInt16.size)

end Json

namespace Refusal

def ofJson? (value : Json) : Option Refusal := do
  guard (value.isRecord 4)
  let _ ← value.required? Json.str? 0 "status"
  let message ← value.defaulted? Json.str? "" 1 "message"
  let reason ← value.defaulted? Json.str? "" 2 "reason"
  let code ← value.required? Json.uint16? 3 "code"
  return { message, reason, code }

/-- The code tells whether an object is missing or in the way. Two refusals have the code of a
conflict, and the reason tells them apart. -/
def toStoreError (refusal : Refusal) : StoreError :=
  if refusal.code = 404 then .notFound refusal.message
  else if refusal.code = 409 then
    if refusal.reason = "AlreadyExists" then .alreadyExists refusal.message
    else .conflict refusal.message
  else .transient refusal.message

end Refusal

namespace Answer

/-- Why the request was refused, if it was. A text that does not say is the message itself. -/
def refusal? (answer : Answer) : Option Refusal :=
  if 400 ≤ answer.status ∧ answer.status < 600 then
    some (((Json.parse? answer.body).bind Refusal.ofJson?).getD
      { message := Text.quoted answer.body, reason := "Failed to parse error data"
        code := answer.status })
  else none

/-- What the answer holds, in a form that has to be readable. -/
def read {β : Type} (form : Json → Option β) (answer : Answer) : Except StoreError β :=
  match answer.refusal? with
  | some refusal => .error refusal.toStoreError
  | none =>
      match (Json.parse? answer.body).bind form with
      | some value => .ok value
      | none => .error (.transient "unreadable answer")

end Answer

/-- A request together with what an answer to it means. -/
structure Call (β : Type) where
  request : Request
  read : Answer → Except StoreError β

end ReconcileLoop
