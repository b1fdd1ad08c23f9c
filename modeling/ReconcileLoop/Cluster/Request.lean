import ReconcileLoop.Object.Resource

namespace ReconcileLoop

/-! # Requests to the cluster

The objects of a kind have an address in the cluster, all together, those of one namespace, and each
of them. A request names an address and what is to be done there.
-/

namespace Kind

def address (kind : Kind) (space? : Option String) : String :=
  (if kind.group = "" then "/api/" else "/apis/") ++ kind.apiVersion ++
    (match space? with
      | some space => "/namespaces/" ++ space
      | none => "") ++
    "/" ++ kind.plural

end Kind

inductive Verb where
  | get
  | list
  | watch
  | create
  | patch
  | delete
deriving DecidableEq, Repr, Inhabited

/-- The method of a request. To watch is to list without an end, which gets a name of its own. -/
def Verb.method : Verb → String
  | get => "GET"
  | list => "GET"
  | watch => "WATCH"
  | create => "POST"
  | patch => "PATCH"
  | delete => "DELETE"

structure Request where
  verb : Verb
  path : String
  body : Option Json := none
deriving DecidableEq, Inhabited

namespace Request

/-- The characters that may stand in a path without an escape: no control characters, blanks, angle
brackets and backticks, and none of the two that end a path. -/
def isPathChar (c : Char) : Bool :=
  32 < c.toNat && !("<>\x60?#".toList.contains c)

def isQueryChar (c : Char) : Bool :=
  32 < c.toNat && !("\"<>#".toList.contains c)

/-- The path in an address. A question mark in a name ends it, and so does a number sign, behind
which nothing is read at all. An address with a character that has no place in it is refused. -/
def pathOf? (address : String) : Option String :=
  let read := address.toList.takeWhile (· ≠ '#')
  let path := read.takeWhile (· ≠ '?')
  if path.all isPathChar && ((read.drop path.length).all isQueryChar) then
    some (String.ofList path)
  else none

def ofAddress (verb : Verb) (address : String) (body : Option Json) : Except StoreError Request :=
  match pathOf? address with
  | some path => .ok { verb, path, body }
  | none => .error (.transient "unusable address")

end Request

end ReconcileLoop
