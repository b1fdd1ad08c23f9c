import ReconcileLoop.Object.Ownership
import ReconcileLoop.Store.Scripted

namespace ReconcileLoop

/-! # What calls do to a store

A call of a controller removes the object under a key, or creates one where there was none, or
changes nothing. `Edited` says which edits a run of calls made, in order; the feed of the store
tells of the same edits. It also says that calls bring up no failures that were not prepared before.
-/

inductive Edit (α : Type) where
  | removed (key : Key) (gone : α)
  | created (key : Key) (made : α)

def Edit.delta {α : Type} : Edit α → Delta α
  | removed _ gone => .deleted gone
  | created _ made => .applied made

variable {α : Type}

/-- Edits that lead from some objects to others: what is removed was there, and where something is
created nothing was. -/
inductive Edits : Std.ExtTreeMap Key α → List (Edit α) → Std.ExtTreeMap Key α → Prop where
  | done {items} : Edits items [] items
  | removed {items key gone rest after} (present : items[key]? = some gone)
      (later : Edits (items.erase key) rest after) : Edits items (.removed key gone :: rest) after
  | created {items key made rest after} (absent : items[key]? = none)
      (later : Edits (items.insert key made) rest after) :
      Edits items (.created key made :: rest) after

namespace Edits

theorem eq_of_nil {items after : Std.ExtTreeMap Key α} (run : Edits items [] after) :
    after = items := by
  cases run
  rfl

theorem eq_of_created {items after : Std.ExtTreeMap Key α} {key : Key} {made : α}
    (run : Edits items [.created key made] after) : after = items.insert key made := by
  cases run with
  | created _ later => exact later.eq_of_nil

theorem append {items middle after : Std.ExtTreeMap Key α} {first second : List (Edit α)}
    (start : Edits items first middle) (finish : Edits middle second after) :
    Edits items (first ++ second) after := by
  induction start with
  | done => exact finish
  | removed present _ ih => exact .removed present (ih finish)
  | created absent _ ih => exact .created absent (ih finish)

theorem survives {items after : Std.ExtTreeMap Key α} {edits : List (Edit α)}
    (run : Edits items edits after) {key : Key} {object : α} (present : items[key]? = some object) :
    after[key]? = some object ∨ .removed key object ∈ edits := by
  induction run with
  | done => exact .inl present
  | @removed items own gone rest after there _ ih =>
      by_cases same : own = key
      · subst same
        rw [there] at present
        cases present
        exact .inr (List.mem_cons_self ..)
      · rcases ih (by simp [Std.ExtTreeMap.getElem?_erase, same, present]) with stays | goes
        · exact .inl stays
        · exact .inr (List.mem_cons_of_mem _ goes)
  | @created items own made rest after absent _ ih =>
      have differ : own ≠ key := by rintro rfl; simp [absent] at present
      rcases ih (by simp [Std.ExtTreeMap.getElem?_insert, differ, present]) with stays | goes
      · exact .inl stays
      · exact .inr (List.mem_cons_of_mem _ goes)

theorem present_of_removed {items after : Std.ExtTreeMap Key α} {edits : List (Edit α)}
    (run : Edits items edits after) {key : Key} {gone : α} (goes : .removed key gone ∈ edits)
    (nothing : ∀ made, .created key made ∉ edits) : items[key]? = some gone := by
  induction run with
  | done => contradiction
  | @removed items own old rest after there _ ih =>
      rcases List.mem_cons.mp goes with same | goes
      · cases same
        exact there
      · have later := ih goes fun made member => nothing made (List.mem_cons_of_mem _ member)
        rw [Std.ExtTreeMap.getElem?_erase] at later
        split at later
        · contradiction
        · exact later
  | @created items own made rest after absent _ ih =>
      rcases List.mem_cons.mp goes with same | goes
      · contradiction
      · have later := ih goes fun made member => nothing made (List.mem_cons_of_mem _ member)
        have differ : own ≠ key := by rintro rfl; exact nothing made (List.mem_cons_self ..)
        simpa [Std.ExtTreeMap.getElem?_insert, differ] using later

theorem absent {items after : Std.ExtTreeMap Key α} {edits : List (Edit α)}
    (run : Edits items edits after) {key : Key} (empty : items[key]? = none)
    (nothing : ∀ made, .created key made ∉ edits) : after[key]? = none := by
  induction run with
  | done => exact empty
  | @removed items own gone rest after _ _ ih =>
      refine ih ?_ fun made member => nothing made (List.mem_cons_of_mem _ member)
      simp [Std.ExtTreeMap.getElem?_erase, empty]
  | @created items own made rest after _ _ ih =>
      refine ih ?_ fun other member => nothing other (List.mem_cons_of_mem _ member)
      have differ : own ≠ key := by rintro rfl; exact nothing made (List.mem_cons_self ..)
      simp [Std.ExtTreeMap.getElem?_insert, differ, empty]

theorem present {items after : Std.ExtTreeMap Key α} {edits : List (Edit α)}
    (run : Edits items edits after) {key : Key} {object : α} (there : after[key]? = some object)
    (nothing : ∀ made, .created key made ∉ edits) : items[key]? = some object := by
  induction run with
  | done => exact there
  | @removed items own gone rest after _ _ ih =>
      have later := ih there fun made member => nothing made (List.mem_cons_of_mem _ member)
      rw [Std.ExtTreeMap.getElem?_erase] at later
      split at later
      · contradiction
      · exact later
  | @created items own made rest after _ _ ih =>
      have later := ih there fun other member => nothing other (List.mem_cons_of_mem _ member)
      have differ : own ≠ key := by rintro rfl; exact nothing made (List.mem_cons_self ..)
      simpa [Std.ExtTreeMap.getElem?_insert, differ] using later

end Edits

namespace Store

structure Edited (before : Store α) (edits : List (Edit α)) (after : Store α) : Prop where
  objects : Edits before.objects edits after.objects
  feed : after.feed = before.feed ++ edits.map Edit.delta
  calm (op : Op) (reliable : before.failures.value op = 0) : after.failures.value op = 0

theorem Edited.trans {before middle after : Store α} {first second : List (Edit α)}
    (start : before.Edited first middle) (finish : middle.Edited second after) :
    before.Edited (first ++ second) after where
  objects := start.objects.append finish.objects
  feed := by rw [finish.feed, start.feed, List.map_append, List.append_assoc]
  calm := fun op reliable => finish.calm op (start.calm op reliable)

theorem Edited.refl (store : Store α) : store.Edited [] store :=
  ⟨.done, by simp, fun _ reliable => reliable⟩

theorem Edited.objects_eq {before after : Store α} (nothing : before.Edited [] after) :
    after.objects = before.objects :=
  nothing.objects.eq_of_nil

theorem begin_edited (store : Store α) (op : Op) : store.Edited [] (store.begin op).2 := by
  unfold begin
  simp only
  split
  · exact ⟨.done, by simp, fun _ reliable => reliable⟩
  · next fails =>
      split
      · exact ⟨.done, by simp, fun _ reliable => reliable⟩
      · refine ⟨.done, by simp, fun other reliable => ?_⟩
        rw [PerOp.value_set]
        split
        · next same =>
            subst same
            exact absurd reliable fails
        · exact reliable

theorem attempt_cases {β : Type} {store after : Store α} {op : Op}
    {run : Store α → Except StoreError β × Store α} {result : Except StoreError β}
    (tried : store.attempt op run = (result, after)) :
    (store.failures.value op ≠ 0 ∧ result = .error (injected op) ∧ store.Edited [] after) ∨
      ∃ counted, store.Edited [] counted ∧ run counted = (result, after) := by
  have counted := store.begin_edited op
  unfold attempt at tried
  split at tried
  · next next fails =>
      rw [fails] at counted
      cases tried
      refine .inl ⟨fun none => ?_, rfl, counted⟩
      simp [begin, none] at fails
  · next next runs =>
      rw [runs] at counted
      exact .inr ⟨next, counted, tried⟩

theorem get_edited {store after : Store α} {key : Key} {result : Except StoreError (Option α)}
    (got : store.get key = (result, after)) : store.Edited [] after := by
  rcases attempt_cases got with ⟨_, _, counted⟩ | ⟨next, counted, asked⟩
  · exact counted
  · cases asked
    exact counted

theorem delete_edited {store after : Store α} {key : Key} {result : Except StoreError Unit}
    (deleted : store.delete key = (result, after)) :
    (∃ gone, result = .ok () ∧ store.objects[key]? = some gone ∧
      store.Edited [.removed key gone] after) ∨
    (∃ error, result = .error error) ∧ store.Edited [] after := by
  rcases attempt_cases deleted with ⟨_, refused, counted⟩ | ⟨next, counted, asked⟩
  · exact .inr ⟨⟨_, refused⟩, counted⟩
  · have same := counted.objects_eq
    unfold remove at asked
    cases present : next.objects[key]? with
    | none =>
        simp only [present] at asked
        cases asked
        exact .inr ⟨⟨_, rfl⟩, counted⟩
    | some gone =>
        simp only [present] at asked
        cases asked
        refine .inl ⟨gone, rfl, same ▸ present, counted.trans ?_⟩
        exact ⟨.removed present .done, rfl, fun _ reliable => reliable⟩

theorem delete_reliable {store after : Store α} {key : Key} {error : StoreError}
    (deleted : store.delete key = (.error error, after))
    (reliable : store.failures.value .delete = 0) : error.isNotFound = true := by
  rcases attempt_cases deleted with ⟨fails, _, _⟩ | ⟨next, counted, asked⟩
  · contradiction
  · split at asked <;> cases asked
    rfl

/-- A store says that there is nothing to delete only where there is nothing. -/
theorem delete_absent {store after : Store α} {key : Key} {result : Except StoreError Unit}
    (deleted : store.delete key = (result, after))
    (done : ∀ error, result = .error error → error.isNotFound = true) :
    after.objects[key]? = none := by
  rcases attempt_cases deleted with ⟨_, refused, _⟩ | ⟨next, counted, asked⟩
  · have impossible := done _ refused
    contradiction
  · unfold remove at asked
    cases present : next.objects[key]? with
    | none =>
        simp only [present] at asked
        cases asked
        exact present
    | some gone =>
        simp only [present] at asked
        cases asked
        simp [announce]

variable [Resource α]

/-- An object as some write stamped it. -/
def StampOf (object written : α) : Prop :=
  ∃ fresh version,
    written = Resource.withMetadata object (stamped fresh version (Resource.metadata object))

theorem stampOf_stamp (store : Store α) (object : α) : StampOf object (store.stamp object) :=
  ⟨store.uids (store.version + 1), store.version + 1, rfl⟩

theorem StampOf.key_eq {object written : α} (stamp : StampOf object written) :
    Resource.key written = Resource.key object := by
  obtain ⟨fresh, version, rfl⟩ := stamp
  simp [Resource.key, Metadata.key, stamped]

theorem StampOf.isControlledBy_eq {object written : α} {ω : Type} [Resource ω] {owner : ω}
    (stamp : StampOf object written) :
    (Resource.metadata written).isControlledBy owner =
      (Resource.metadata object).isControlledBy owner := by
  obtain ⟨fresh, version, rfl⟩ := stamp
  simp [Metadata.isControlledBy, Metadata.controller?, stamped]

theorem create_edited {store after : Store α} {object : α} {result : Except StoreError α}
    (called : store.create object = (result, after)) :
    (∃ key made, result = .ok made ∧ Resource.key object = .ok key ∧ StampOf object made ∧
      store.Edited [.created key made] after) ∨
    (∃ error, result = .error error) ∧ store.Edited [] after := by
  have nothing : store.Edited [] store := .refl store
  unfold create at called
  cases named : keyOf object with
  | error error =>
      simp only [named] at called
      cases called
      exact .inr ⟨⟨_, rfl⟩, nothing⟩
  | ok key =>
      simp only [named] at called
      have own : Resource.key object = .ok key := by
        unfold keyOf at named
        split at named
        · next key found => cases named; exact found
        · contradiction
      rcases attempt_cases called with ⟨_, refused, counted⟩ | ⟨next, counted, asked⟩
      · exact .inr ⟨⟨_, refused⟩, counted⟩
      · cases present : next.objects[key]? with
        | some held =>
            simp only [present] at asked
            cases asked
            exact .inr ⟨⟨_, rfl⟩, counted⟩
        | none =>
            simp only [present] at asked
            cases asked
            refine .inl ⟨key, next.stamp object, rfl, own, next.stampOf_stamp object,
              counted.trans ?_⟩
            exact ⟨.created present .done, rfl, fun _ reliable => reliable⟩

end Store

namespace ScriptedStore

/-- Whether no delete was made to fail. -/
structure Reliable (api : ScriptedStore α) : Prop where
  replies : api.replies.value .delete = []
  failures : api.store.failures.value .delete = 0

/-- What a run of calls did to a store, prepared replies included. -/
structure Edited (before : ScriptedStore α) (edits : List (Edit α)) (after : ScriptedStore α) :
    Prop where
  store : before.store.Edited edits after.store
  replies (op : Op) (silent : before.replies.value op = []) : after.replies.value op = []

theorem Edited.refl (api : ScriptedStore α) : api.Edited [] api :=
  ⟨.refl api.store, fun _ silent => silent⟩

theorem Edited.trans {before middle after : ScriptedStore α} {first second : List (Edit α)}
    (start : before.Edited first middle) (finish : middle.Edited second after) :
    before.Edited (first ++ second) after :=
  ⟨start.store.trans finish.store, fun op silent => finish.replies op (start.replies op silent)⟩

theorem Edited.reliable {before after : ScriptedStore α} {edits : List (Edit α)}
    (run : before.Edited edits after) (reliable : before.Reliable) : after.Reliable :=
  ⟨run.replies .delete reliable.replies, run.store.calm .delete reliable.failures⟩

theorem Edited.of_store {api : ScriptedStore α} {store : Store α} {edits : List (Edit α)}
    (edited : api.store.Edited edits store) : api.Edited edits { api with store } :=
  ⟨edited, fun _ silent => silent⟩

theorem prepare_edited {api : ScriptedStore α} {op : Op} {reply : Reply} {rest : List Reply}
    (replies : api.replies.value op = reply :: rest) : api.Edited [] (api.prepare op rest) := by
  refine ⟨(Edited.refl api).store, fun other silent => ?_⟩
  rw [prepare, PerOp.value_set]
  split
  · next same =>
      subst same
      simp [replies] at silent
  · exact silent

theorem call_cases {β : Type} {api after : ScriptedStore α} {op : Op} {nothing : Option β}
    {ask : Store α → Except StoreError β × Store α} {result : Except StoreError β}
    (called : api.call op nothing ask = (result, after)) :
    (api.replies.value op ≠ [] ∧
      ((∃ error, result = .error error) ∨ ∃ value, nothing = some value ∧ result = .ok value) ∧
      api.Edited [] after) ∨
    ∃ store, ask api.store = (result, store) ∧ after.store = store ∧
      ∀ edits, api.store.Edited edits store → api.Edited edits after := by
  unfold call at called
  split at called
  · next replies =>
      cases called
      exact .inl ⟨by simp [replies], .inl ⟨_, rfl⟩, prepare_edited replies⟩
  · next replies =>
      cases called
      exact .inl ⟨by simp [replies], .inr ⟨_, rfl, rfl⟩, prepare_edited replies⟩
  · next replies =>
      cases called
      refine .inr ⟨_, rfl, rfl, fun edits edited => ?_⟩
      exact (prepare_edited replies).trans (.of_store edited)
  · cases called
    exact .inr ⟨_, rfl, rfl, fun edits edited => .of_store edited⟩

theorem get_edited {api after : ScriptedStore α} {key : Key}
    {result : Except StoreError (Option α)} (got : api.get key = (result, after)) :
    api.Edited [] after := by
  rcases call_cases got with ⟨_, _, unchanged⟩ | ⟨store, asked, _, edited⟩
  · exact unchanged
  · exact edited _ (Store.get_edited asked)

theorem delete_edited {api after : ScriptedStore α} {key : Key} {result : Except StoreError Unit}
    (deleted : api.delete key = (result, after)) :
    (∃ gone, result = .ok () ∧ api.store.objects[key]? = some gone ∧
      api.Edited [.removed key gone] after) ∨
    (∃ error, result = .error error) ∧ api.Edited [] after := by
  rcases call_cases deleted with
    ⟨_, failed | ⟨_, impossible, _⟩, unchanged⟩ | ⟨store, asked, _, edited⟩
  · exact .inr ⟨failed, unchanged⟩
  · contradiction
  · rcases Store.delete_edited asked with ⟨gone, done, present, did⟩ | ⟨failed, did⟩
    · exact .inl ⟨gone, done, present, edited _ did⟩
    · exact .inr ⟨failed, edited _ did⟩

theorem delete_edits {api after : ScriptedStore α} {key : Key} {result : Except StoreError Unit}
    (deleted : api.delete key = (result, after)) : ∃ edits, api.Edited edits after := by
  rcases delete_edited deleted with ⟨gone, _, _, edited⟩ | ⟨_, edited⟩
  · exact ⟨[.removed key gone], edited⟩
  · exact ⟨[], edited⟩

theorem delete_reliable {api after : ScriptedStore α} {key : Key} {error : StoreError}
    (deleted : api.delete key = (.error error, after)) (reliable : api.Reliable) :
    error.isNotFound = true := by
  rcases call_cases deleted with ⟨replied, _, _⟩ | ⟨store, asked, rfl, _⟩
  · exact absurd reliable.replies replied
  · exact Store.delete_reliable asked reliable.failures

theorem delete_absent {api after : ScriptedStore α} {key : Key} {result : Except StoreError Unit}
    (deleted : api.delete key = (result, after)) (silent : api.replies.value .delete = [])
    (done : ∀ error, result = .error error → error.isNotFound = true) :
    after.store.objects[key]? = none := by
  rcases call_cases deleted with ⟨replied, _, _⟩ | ⟨store, asked, rfl, _⟩
  · exact absurd silent replied
  · exact Store.delete_absent asked done

theorem delete_silent {api after : ScriptedStore α} {key : Key} {result : Except StoreError Unit}
    (deleted : api.delete key = (result, after)) (silent : api.replies.value .delete = []) :
    after.replies.value .delete = [] := by
  obtain ⟨_, edited⟩ := delete_edits deleted
  exact edited.replies .delete silent

variable [Resource α]

theorem create_edited {api after : ScriptedStore α} {object : α} {result : Except StoreError α}
    (called : api.create object = (result, after)) :
    (∃ key made, result = .ok made ∧ Resource.key object = .ok key ∧ Store.StampOf object made ∧
      api.Edited [.created key made] after) ∨
    (∃ error, result = .error error) ∧ api.Edited [] after := by
  rcases call_cases called with
    ⟨_, failed | ⟨_, impossible, _⟩, unchanged⟩ | ⟨store, asked, _, edited⟩
  · exact .inr ⟨failed, unchanged⟩
  · contradiction
  · rcases Store.create_edited asked with ⟨key, made, done, own, stamp, did⟩ | ⟨failed, did⟩
    · exact .inl ⟨key, made, done, own, stamp, edited _ did⟩
    · exact .inr ⟨failed, edited _ did⟩

end ScriptedStore

end ReconcileLoop
