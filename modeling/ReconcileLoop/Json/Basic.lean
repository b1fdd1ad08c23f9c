namespace ReconcileLoop

/-! # JSON values

Objects of every kind are exchanged as JSON. The members of an object are kept in the increasing
order of their names, each name once; `Json.ofMembers` builds such an object from any list.
-/

/-- A JSON value. Whole numbers are kept apart from the numbers that were written with a point or
an exponent. -/
inductive Json where
  | null
  | bool (value : Bool)
  | int (value : Int)
  /-- `mantissa * 10 ^ exponent` -/
  | dec (mantissa exponent : Int)
  | str (value : String)
  | arr (items : List Json)
  | obj (members : List (String × Json))
deriving Repr, Inhabited

namespace Json

mutual

/-- Equality of JSON values is decided member by member. -/
def decEq : (left right : Json) → Decidable (left = right)
  | null, null => isTrue rfl
  | bool a, bool b => decidable_of_iff (a = b) (by simp)
  | int a, int b => decidable_of_iff (a = b) (by simp)
  | dec a e, dec b f => decidable_of_iff (a = b ∧ e = f) (by simp)
  | str a, str b => decidable_of_iff (a = b) (by simp)
  | arr xs, arr ys =>
      match decEqItems xs ys with
      | isTrue same => isTrue (congrArg arr same)
      | isFalse differ => isFalse fun same => differ (arr.inj same)
  | obj xs, obj ys =>
      match decEqMembers xs ys with
      | isTrue same => isTrue (congrArg obj same)
      | isFalse differ => isFalse fun same => differ (obj.inj same)
  | null, bool _ | null, int _ | null, dec _ _ | null, str _ | null, arr _ | null, obj _
  | bool _, null | bool _, int _ | bool _, dec _ _ | bool _, str _ | bool _, arr _ | bool _, obj _
  | int _, null | int _, bool _ | int _, dec _ _ | int _, str _ | int _, arr _ | int _, obj _
  | dec _ _, null | dec _ _, bool _ | dec _ _, int _ | dec _ _, str _ | dec _ _, arr _
  | dec _ _, obj _
  | str _, null | str _, bool _ | str _, int _ | str _, dec _ _ | str _, arr _ | str _, obj _
  | arr _, null | arr _, bool _ | arr _, int _ | arr _, dec _ _ | arr _, str _ | arr _, obj _
  | obj _, null | obj _, bool _ | obj _, int _ | obj _, dec _ _ | obj _, str _ | obj _, arr _ =>
      isFalse nofun

def decEqItems : (left right : List Json) → Decidable (left = right)
  | [], [] => isTrue rfl
  | x :: xs, y :: ys =>
      match decEq x y, decEqItems xs ys with
      | isTrue head, isTrue tail => isTrue (by rw [head, tail])
      | isFalse differ, _ => isFalse fun same => differ (List.cons.inj same).1
      | _, isFalse differ => isFalse fun same => differ (List.cons.inj same).2
  | [], _ :: _ | _ :: _, [] => isFalse nofun

def decEqMembers : (left right : List (String × Json)) → Decidable (left = right)
  | [], [] => isTrue rfl
  | (n, x) :: xs, (m, y) :: ys =>
      if name : n = m then
        match decEq x y, decEqMembers xs ys with
        | isTrue head, isTrue tail => isTrue (by rw [name, head, tail])
        | isFalse differ, _ =>
            isFalse fun same => differ (Prod.mk.inj (List.cons.inj same).1).2
        | _, isFalse differ => isFalse fun same => differ (List.cons.inj same).2
      else isFalse fun same => name (Prod.mk.inj (List.cons.inj same).1).1
  | [], _ :: _ | _ :: _, [] => isFalse nofun

end

instance : DecidableEq Json := decEq

def lookup (name : String) : List (String × Json) → Option Json
  | [] => none
  | (other, value) :: rest => if name = other then some value else lookup name rest

/-- Puts a member in its place; a member of that name is replaced. -/
def insertMember (name : String) (value : Json) : List (String × Json) → List (String × Json)
  | [] => [(name, value)]
  | (other, present) :: rest =>
      if name = other then (name, value) :: rest
      else if name < other then (name, value) :: (other, present) :: rest
      else (other, present) :: insertMember name value rest

@[simp] theorem lookup_nil (name : String) : lookup name [] = none := rfl

@[simp] theorem lookup_cons (name other : String) (value : Json) (rest : List (String × Json)) :
    lookup name ((other, value) :: rest) = if name = other then some value else lookup name rest :=
  rfl

theorem lookup_insertMember (name other : String) (value : Json) (members : List (String × Json)) :
    lookup name (insertMember other value members) =
      if name = other then some value else lookup name members := by
  induction members with
  | nil => rfl
  | cons member rest ih =>
      obtain ⟨present, held⟩ := member
      simp only [insertMember]
      split
      · next same => subst same; simp only [lookup_cons]; split <;> rfl
      · split
        · rfl
        · next differ _ =>
            simp only [lookup_cons, ih]
            by_cases here : name = present
            · subst here; simp [Ne.symm differ]
            · simp [here]

/-- The members in order, of those with one name the last. -/
def normalizeMembers (members : List (String × Json)) : List (String × Json) :=
  members.foldl (fun sorted member => insertMember member.1 member.2 sorted) []

/-- An object with the given members; of members with one name the last counts. -/
def ofMembers (members : List (String × Json)) : Json := obj (normalizeMembers members)

def ofOptions (members : List (String × Option Json)) : Json :=
  ofMembers (members.filterMap fun member => member.2.map (member.1, ·))

def get? (name : String) : Json → Option Json
  | obj members => lookup name members
  | _ => none

/-- The value of a member of an object, where `null` is as good as no member. -/
def getSome? (name : String) (value : Json) : Option Json :=
  match value.get? name with
  | some null => none
  | found => found

def members? : Json → Option (List (String × Json))
  | obj members => some members
  | _ => none

def items? : Json → Option (List Json)
  | arr items => some items
  | _ => none

def str? : Json → Option String
  | str value => some value
  | _ => none

def bool? : Json → Option Bool
  | bool value => some value
  | _ => none

def int? : Json → Option Int
  | int value => some value
  | _ => none

def nat? : Json → Option Nat
  | int (.ofNat value) => some value
  | _ => none

/-- The value that stands for an absent one: `null`. -/
def ofOption (value? : Option Json) : Json := value?.getD null

def ofNat (n : Nat) : Json := int n

end Json

end ReconcileLoop
