import ReconcileLoop.Proofs.Store.Told

namespace ReconcileLoop

/-! # Calls that nothing makes fail

A store is calm if no failure and no reply was prepared. Then a create of what is not there succeeds,
and so does an update of the status of what is there.
-/

variable {α : Type}

namespace Store

variable [Resource α]

theorem keyOf_of_key {object : α} {key : Key} (own : Resource.key object = .ok key) :
    keyOf object = .ok key := by
  simp only [keyOf, own]

theorem create_calm {store after : Store α} {object : α} {key : Key}
    {result : Except StoreError α} (called : store.create object = (result, after))
    (own : Resource.key object = .ok key) (absent : store.objects[key]? = none)
    (calm : store.failures.value .create = 0) : ∃ made, result = .ok made := by
  simp only [create, keyOf_of_key own] at called
  rcases attempt_cases called with ⟨fails, _, _⟩ | ⟨counted, nothing, asked⟩
  · contradiction
  · have empty : counted.objects[key]? = none := by rw [nothing.objects_eq, absent]
    simp only [empty] at asked
    cases asked
    exact ⟨_, rfl⟩

/-- What a write of a status does: the object under the key is written again with that status. -/
def Restated (before : Store α) (object made : α) (after : Store α) : Prop :=
  ∃ key current updated, Resource.key object = .ok key ∧ before.objects[key]? = some current ∧
    Resource.replaceStatus current object = some updated ∧ StampOf updated made ∧
    after.objects = before.objects.insert key made

theorem updateStatus_cases {store after : Store α} {object : α} {result : Except StoreError α}
    (called : store.updateStatus object = (result, after)) :
    (∃ error, result = .error error) ∧ after.objects = store.objects ∨
      ∃ made, result = .ok made ∧ store.Restated object made after := by
  unfold updateStatus at called
  cases named : keyOf object with
  | error error =>
      simp only [named] at called
      cases called
      exact .inl ⟨⟨_, rfl⟩, rfl⟩
  | ok key =>
      simp only [named] at called
      rcases attempt_cases called with ⟨_, refused, nothing⟩ | ⟨counted, nothing, asked⟩
      · exact .inl ⟨⟨_, refused⟩, nothing.objects_eq⟩
      · have same := nothing.objects_eq
        cases present : counted.objects[key]? with
        | none =>
            simp only [present] at asked
            cases asked
            exact .inl ⟨⟨_, rfl⟩, same⟩
        | some current =>
            simp only [present] at asked
            cases replaced : Resource.replaceStatus current object with
            | none =>
                simp only [replaced] at asked
                cases asked
                exact .inl ⟨⟨_, rfl⟩, same⟩
            | some updated =>
                simp only [replaced] at asked
                cases asked
                refine .inr ⟨_, rfl, key, current, updated, keyOf_eq_ok named, same ▸ present,
                  replaced, counted.stampOf_stamp updated, ?_⟩
                rw [← same]
                rfl

theorem updateStatus_calm {store after : Store α} {object current updated : α} {key : Key}
    {result : Except StoreError α} (called : store.updateStatus object = (result, after))
    (own : Resource.key object = .ok key) (present : store.objects[key]? = some current)
    (replaced : Resource.replaceStatus current object = some updated)
    (calm : store.failures.value .updateStatus = 0) : ∃ made, result = .ok made := by
  simp only [updateStatus, keyOf_of_key own] at called
  rcases attempt_cases called with ⟨fails, _, _⟩ | ⟨counted, nothing, asked⟩
  · contradiction
  · have there : counted.objects[key]? = some current := by rw [nothing.objects_eq, present]
    simp only [there, replaced] at asked
    cases asked
    exact ⟨_, rfl⟩

theorem updateStatus_steady {store after : Store α} {object : α} {result : Except StoreError α}
    (called : store.updateStatus object = (result, after)) {op : Op}
    (calm : store.failures.value op = 0) : after.failures.value op = 0 := by
  unfold updateStatus at called
  cases named : keyOf object with
  | error error =>
      simp only [named] at called
      cases called
      exact calm
  | ok key =>
      simp only [named] at called
      rcases attempt_cases called with ⟨_, _, nothing⟩ | ⟨counted, nothing, asked⟩
      · exact nothing.calm op calm
      · have steady := nothing.calm op calm
        split at asked
        · cases asked
          exact steady
        · split at asked <;>
            · cases asked
              exact steady

end Store

namespace ScriptedStore

/-- Whether nothing was prepared to make a call fail. -/
structure Calm (api : ScriptedStore α) : Prop where
  silent (op : Op) : api.replies.value op = []
  steady (op : Op) : api.store.failures.value op = 0

theorem Calm.reliable {api : ScriptedStore α} (calm : api.Calm) : api.Reliable :=
  ⟨calm.silent .delete, calm.steady .delete⟩

theorem Edited.calm {before after : ScriptedStore α} {edits : List (Edit α)}
    (run : before.Edited edits after) (calm : before.Calm) : after.Calm :=
  ⟨fun op => run.replies op (calm.silent op), fun op => run.store.calm op (calm.steady op)⟩

theorem call_calm {β : Type} {api after : ScriptedStore α} {op : Op} {nothing : Option β}
    {ask : Store α → Except StoreError β × Store α} {result : Except StoreError β}
    (called : api.call op nothing ask = (result, after)) (calm : api.Calm) :
    ∃ store, ask api.store = (result, store) := by
  rcases call_cases called with ⟨replied, _, _⟩ | ⟨store, asked, _, _⟩
  · exact absurd (calm.silent op) replied
  · exact ⟨store, asked⟩

theorem get_found {api after : ScriptedStore α} {key : Key} {object : α}
    (got : api.get key = (.ok (some object), after)) : api.store.objects[key]? = some object := by
  rcases call_cases got with ⟨_, ⟨_, failed⟩ | ⟨_, nothing, answered⟩, _⟩ | ⟨store, asked, _, _⟩
  · contradiction
  · cases nothing
    cases answered
  · rcases Store.attempt_cases asked with ⟨_, refused, _⟩ | ⟨counted, unchanged, looked⟩
    · contradiction
    · rw [← unchanged.objects_eq]
      exact Except.ok.inj (congrArg Prod.fst looked)

theorem Calm.of_call {β : Type} {api after : ScriptedStore α} {op : Op} {nothing : Option β}
    {ask : Store α → Except StoreError β × Store α} {result : Except StoreError β}
    (calm : api.Calm) (called : api.call op nothing ask = (result, after))
    (steady : ∀ store, ask api.store = (result, store) → ∀ op, store.failures.value op = 0) :
    after.Calm := by
  unfold call at called
  rw [calm.silent op] at called
  cases called
  exact ⟨calm.silent, steady _ rfl⟩

variable [Resource α]

theorem create_calm {api after : ScriptedStore α} {object : α} {key : Key}
    {result : Except StoreError α} (called : api.create object = (result, after))
    (own : Resource.key object = .ok key) (absent : api.store.objects[key]? = none)
    (calm : api.Calm) : ∃ made, result = .ok made := by
  obtain ⟨store, asked⟩ := call_calm called calm
  exact Store.create_calm asked own absent (calm.steady .create)

theorem updateStatus_calm {api after : ScriptedStore α} {object current updated : α} {key : Key}
    {result : Except StoreError α} (called : api.updateStatus object = (result, after))
    (own : Resource.key object = .ok key) (present : api.store.objects[key]? = some current)
    (replaced : Resource.replaceStatus current object = some updated) (calm : api.Calm) :
    ∃ made, result = .ok made := by
  obtain ⟨store, asked⟩ := call_calm called calm
  exact Store.updateStatus_calm asked own present replaced (calm.steady .updateStatus)

theorem updateStatus_cases {api after : ScriptedStore α} {object : α}
    {result : Except StoreError α} (called : api.updateStatus object = (result, after)) :
    (∃ error, result = .error error) ∧ after.store.objects = api.store.objects ∨
      ∃ made, result = .ok made ∧ api.store.Restated object made after.store := by
  rcases call_cases called with
    ⟨_, failed | ⟨_, impossible, _⟩, unchanged⟩ | ⟨store, asked, same, _⟩
  · exact .inl ⟨failed, unchanged.store.objects_eq⟩
  · contradiction
  · rw [same]
    exact Store.updateStatus_cases asked

theorem updateStatus_tells [LawfulResource α] {api after : ScriptedStore α} {object : α}
    {result : Except StoreError α} (called : api.updateStatus object = (result, after))
    (keyed : Keyed api.store.objects) : api.store.Tells after.store := by
  rcases call_cases called with ⟨_, _, unchanged⟩ | ⟨store, asked, same, _⟩
  · exact unchanged.store.tells keyed (by simp)
  · have shift := api.store.updateStatus_shift object keyed
    simp only [asked] at shift
    rw [same]
    exact shift.tells keyed

theorem Calm.of_updateStatus {api after : ScriptedStore α} {object : α}
    {result : Except StoreError α} (calm : api.Calm)
    (called : api.updateStatus object = (result, after)) : after.Calm :=
  calm.of_call called fun _ asked op => Store.updateStatus_steady asked (calm.steady op)

end ScriptedStore

end ReconcileLoop
