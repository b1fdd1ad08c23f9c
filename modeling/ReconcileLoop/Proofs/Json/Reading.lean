import Mathlib.Data.List.Nodup
import Mathlib.Data.Option.Basic
import ReconcileLoop.Json.Fields
import ReconcileLoop.Json.Record

namespace ReconcileLoop.Json

/-! # Reading back what was written

A record is written with `ofOptions`, and `get?_ofOptions` says that each of its members is found
again, and no other. From that the readers of members follow: they read what was written if their
reader of values does.
-/

theorem lookup_of_mem {members : List (String × Json)} (distinct : (members.map Prod.fst).Nodup)
    {name : String} {value : Json} (member : (name, value) ∈ members) :
    lookup name members = some value := by
  induction members with
  | nil => contradiction
  | cons head rest ih =>
      obtain ⟨other, held⟩ := head
      rw [List.map_cons, List.nodup_cons] at distinct
      rw [lookup_cons]
      rcases List.mem_cons.mp member with same | later
      · cases same
        rw [if_pos rfl]
      · have differ : name ≠ other := by
          rintro rfl
          exact distinct.1 (List.mem_map.mpr ⟨_, later, rfl⟩)
        rw [if_neg differ]
        exact ih distinct.2 later

theorem lookup_eq_none {members : List (String × Json)} {name : String}
    (absent : name ∉ members.map Prod.fst) : lookup name members = none := by
  induction members with
  | nil => rfl
  | cons head rest ih =>
      rw [List.map_cons, List.mem_cons, not_or] at absent
      rw [lookup_cons, if_neg absent.1]
      exact ih absent.2

theorem lookup_foldl_insertMember (members sorted : List (String × Json))
    (distinct : (members.map Prod.fst).Nodup) (name : String) :
    lookup name
        (members.foldl (fun sorted member => insertMember member.1 member.2 sorted) sorted) =
      (lookup name members).or (lookup name sorted) := by
  induction members generalizing sorted with
  | nil => rfl
  | cons head rest ih =>
      obtain ⟨other, value⟩ := head
      rw [List.map_cons, List.nodup_cons] at distinct
      rw [List.foldl_cons, ih _ distinct.2, lookup_insertMember, lookup_cons]
      by_cases same : name = other
      · subst same
        rw [lookup_eq_none distinct.1, if_pos rfl, if_pos rfl]
        rfl
      · rw [if_neg same, if_neg same]

theorem lookup_normalizeMembers {members : List (String × Json)}
    (distinct : (members.map Prod.fst).Nodup) (name : String) :
    lookup name (normalizeMembers members) = lookup name members := by
  rw [normalizeMembers, lookup_foldl_insertMember members [] distinct, lookup_nil, Option.or_none]

theorem mem_filterMap_iff {members : List (String × Option Json)} {name : String} {value : Json} :
    (name, value) ∈ members.filterMap (fun member => member.2.map (member.1, ·)) ↔
      (name, some value) ∈ members := by
  rw [List.mem_filterMap]
  constructor
  · rintro ⟨⟨other, value?⟩, member, same⟩
    cases value? with
    | none => contradiction
    | some held =>
        cases same
        exact member
  · intro member
    exact ⟨_, member, rfl⟩

theorem get?_ofOptions {members : List (String × Option Json)}
    (distinct : (members.map Prod.fst).Nodup) {name : String} {value? : Option Json}
    (member : (name, value?) ∈ members) : (ofOptions members).get? name = value? := by
  have sublist : List.Sublist
      ((members.filterMap fun member => member.2.map (member.1, ·)).map Prod.fst)
      (members.map Prod.fst) := by
    clear distinct member
    induction members with
    | nil => exact .slnil
    | cons head rest ih =>
        obtain ⟨other, value?⟩ := head
        cases value? with
        | none => exact ih.cons other
        | some value => exact ih.cons_cons other
  have own := distinct.sublist sublist
  change lookup name (normalizeMembers _) = value?
  rw [lookup_normalizeMembers own]
  cases value? with
  | some value => exact lookup_of_mem own (mem_filterMap_iff.mpr member)
  | none =>
      refine lookup_eq_none fun present => ?_
      obtain ⟨⟨_, value⟩, found, rfl⟩ := List.mem_map.mp present
      have twice := List.inj_on_of_nodup_map distinct member (mem_filterMap_iff.mp found) rfl
      cases twice

theorem ofOptions_ne_null (members : List (String × Option Json)) : ofOptions members ≠ null := by
  simp [ofOptions, ofMembers]

variable {α : Type} {read : Json → Option α} (write : α → Json)

theorem optional?_of_get? {value : Json} {name : String} {given : Option α}
    (found : value.get? name = given.map write) (reads : ∀ a, read (write a) = some a)
    (shows : ∀ a, write a ≠ null) : value.optional? read name = some given := by
  unfold optional?
  rw [found]
  cases given with
  | none => rfl
  | some a =>
      rw [Option.map_some]
      split
      · contradiction
      · next null => exact absurd (Option.some.inj null) (shows a)
      · next held _ same =>
          cases same
          rw [reads]
          rfl

theorem optional?_str {value : Json} {name : String} {given : Option String}
    (found : value.get? name = given.map .str) : value.optional? str? name = some given :=
  optional?_of_get? .str found (fun _ => rfl) (by simp)

theorem optional?_bool {value : Json} {name : String} {given : Option Bool}
    (found : value.get? name = given.map .bool) : value.optional? bool? name = some given :=
  optional?_of_get? .bool found (fun _ => rfl) (by simp)

theorem nullable?_of_ne_null {held : Json} (shows : held ≠ null) :
    nullable? read held = (read held).map some := by
  unfold nullable?
  split
  · contradiction
  · rfl

theorem required?_of_member {value : Json} {place : Nat} {name : String} {given : α}
    (found : value.recordMember? place name = some (write given))
    (reads : ∀ a, read (write a) = some a) : value.required? read place name = some given := by
  rw [required?, found, Option.bind_some, reads]

theorem defaulted?_of_member {value : Json} {place : Nat} {name : String} {given default : α}
    (found : value.recordMember? place name = some (write given))
    (reads : ∀ a, read (write a) = some a) :
    value.defaulted? read default place name = some given := by
  unfold defaulted?
  rw [found]
  exact reads given

theorem unset?_of_member {value : Json} {place : Nat} {name : String} {given : Option α}
    (found : value.recordMember? place name = given.map write)
    (reads : ∀ a, read (write a) = some a) (shows : ∀ a, write a ≠ null) :
    value.defaulted? (nullable? read) none place name = some given := by
  unfold defaulted?
  rw [found]
  cases given with
  | none => rfl
  | some a =>
      rw [Option.map_some]
      change nullable? read (write a) = some (some a)
      rw [nullable?_of_ne_null (shows a), reads]
      rfl

theorem nullable?_ofOption (reads : ∀ a, read (write a) = some a) (shows : ∀ a, write a ≠ null)
    (given : Option α) : nullable? read (ofOption (given.map write)) = some given := by
  cases given with
  | none => rfl
  | some a =>
      change nullable? read (write a) = some (some a)
      rw [nullable?_of_ne_null (shows a), reads]
      rfl

theorem nullableMember?_of_some {value held : Json} {place : Nat} {name : String}
    (found : value.recordMember? place name = some held) :
    value.nullableMember? read place name = nullable? read held := by
  unfold nullableMember?
  rw [found]

theorem nullableMember?_of_none {members : List (String × Json)} {place : Nat} {name : String}
    (absent : lookup name members = none) :
    (obj members).nullableMember? read place name = some none := by
  simp only [nullableMember?, recordMember?, absent]

theorem mapM_map (reads : ∀ a, read (write a) = some a) (items : List α) :
    (items.map write).mapM read = some items := by
  induction items with
  | nil => rfl
  | cons item rest ih => simp [reads, ih]

theorem listOf?_map (reads : ∀ a, read (write a) = some a) (items : List α) :
    listOf? read (arr (items.map write)) = some items :=
  mapM_map write reads items

end ReconcileLoop.Json
