import ReconcileLoop.Proofs.Json.Reading

namespace ReconcileLoop.Json

/-! # Merge patches

A merge patch says how a value changes: a member of the patch that is `null` takes the member of
that name away, any other is merged into what is there, and what the patch does not name stays. A
patch that is no object takes the place of the value.
-/

def removeMember (name : String) (members : List (String × Json)) : List (String × Json) :=
  members.filter (·.1 ≠ name)

theorem lookup_removeMember (name other : String) (members : List (String × Json)) :
    lookup name (removeMember other members) =
      if name = other then none else lookup name members := by
  induction members with
  | nil => simp [removeMember]
  | cons head rest ih =>
      obtain ⟨present, value⟩ := head
      unfold removeMember at ih ⊢
      rw [List.filter_cons]
      by_cases same : present = other
      · subst same
        simp only [ne_eq, not_true_eq_false, decide_false, Bool.false_eq_true, if_false, ih,
          lookup_cons]
        by_cases here : name = present <;> simp [here]
      · simp only [ne_eq, same, not_false_eq_true, decide_true, if_true, ih, lookup_cons]
        by_cases here : name = present
        · subst here
          simp [same]
        · simp [here]

/-- The members of a value that is an object; any other has none. -/
def membersOf (value : Json) : List (String × Json) := value.members?.getD []

mutual

/-- The value after a merge patch. -/
def mergePatch (target : Json) : Json → Json
  | obj patch => obj (mergeMembers (membersOf target) patch)
  | patch => patch

/-- The members after those of a patch are merged in, one after the other. -/
def mergeMembers (members : List (String × Json)) : List (String × Json) → List (String × Json)
  | [] => members
  | (name, value) :: rest =>
      mergeMembers
        (if value = null then removeMember name members
        else insertMember name (mergePatch ((lookup name members).getD null) value) members) rest

end

/-- A member of the patch decides about the member of its name and about no other. -/
theorem lookup_mergeMembers (members patch : List (String × Json))
    (distinct : (patch.map Prod.fst).Nodup) (name : String) :
    lookup name (mergeMembers members patch) =
      match lookup name patch with
      | none => lookup name members
      | some value =>
          if value = null then none
          else some (mergePatch ((lookup name members).getD null) value) := by
  induction patch generalizing members with
  | nil => rfl
  | cons head rest ih =>
      obtain ⟨other, value⟩ := head
      rw [List.map_cons, List.nodup_cons] at distinct
      rw [mergeMembers, ih _ distinct.2, lookup_cons]
      by_cases same : name = other
      · subst same
        rw [lookup_eq_none distinct.1, if_pos rfl]
        simp only
        split
        · rw [lookup_removeMember, if_pos rfl]
        · rw [lookup_insertMember, if_pos rfl]
      · have untouched : lookup name
            (if value = null then removeMember other members
            else insertMember other (mergePatch ((lookup other members).getD null) value) members) =
            lookup name members := by
          split
          · rw [lookup_removeMember, if_neg same]
          · rw [lookup_insertMember, if_neg same]
        rw [untouched, if_neg same]

theorem get?_mergePatch (target : Json) (patch : List (String × Json))
    (distinct : (patch.map Prod.fst).Nodup) (name : String) :
    (mergePatch target (obj patch)).get? name =
      match lookup name patch with
      | none => lookup name (membersOf target)
      | some value =>
          if value = null then none
          else some (mergePatch ((lookup name (membersOf target)).getD null) value) := by
  rw [mergePatch]
  exact lookup_mergeMembers (membersOf target) patch distinct name

end ReconcileLoop.Json
