import Mathlib.Logic.Relation
import ReconcileLoop.Proofs.Cache.Ingest
import ReconcileLoop.Proofs.Cache.Relist

namespace ReconcileLoop

/-! # What whoever is notified finds in the cache

A chronicle is a cache with its history: what was sent to it, the batches that its task took, and the
notifications that it handed on, each with the view at that time. In every state that the task can be
in, the calls so far are the first of those that the batches give rise to, each with the view after
the whole batch (`Chronicle.Kept`); and the sync signal comes after the calls of a batch with an
`initDone`.
-/

variable {α : Type}

/-- What a notification says is under its key. -/
def Notification.left? : Notification α → Option α
  | .added object => some object
  | .updated _ object => some object
  | .deleted _ => none

namespace Notification

theorem left?_eq_none_iff {note : Notification α} :
    note.left? = none ↔ ∃ gone, note = .deleted gone := by
  cases note <;> simp [left?]

theorem left?_eq_object {note : Notification α} (stays : ∀ gone, note ≠ .deleted gone) :
    note.left? = some note.object := by
  cases note with
  | added object => rfl
  | updated old new => rfl
  | deleted gone => exact absurd rfl (stays gone)

end Notification

/-- A cache with what went into it and what came out. -/
structure Chronicle (α : Type) where
  ingest : Ingest α
  /-- The deltas sent so far. -/
  sent : List (Delta α) := []
  /-- The batches published so far. -/
  batches : List (List (Delta α)) := []
  /-- The notifications handed on so far, each with the view that was published by then. -/
  handed : List (Notification α × Snapshot α) := []

variable [Resource α]

theorem Replay.split {items after : Std.ExtTreeMap Key α} {first second : List (Notification α)}
    (replay : Replay items (first ++ second) after) :
    ∃ middle, Replay items first middle ∧ Replay middle second after := by
  induction first generalizing items with
  | nil => exact ⟨items, .done, replay⟩
  | cons note rest ih =>
      cases replay with
      | added keyed absent later =>
          obtain ⟨middle, start, finish⟩ := ih later
          exact ⟨middle, .added keyed absent start, finish⟩
      | updated keyed present later =>
          obtain ⟨middle, start, finish⟩ := ih later
          exact ⟨middle, .updated keyed present start, finish⟩
      | deleted keyed later =>
          obtain ⟨middle, start, finish⟩ := ih later
          exact ⟨middle, .deleted keyed start, finish⟩

/-- The last notification about a key is right about it. -/
theorem Replay.getElem?_last {items after : Std.ExtTreeMap Key α} {notes : List (Notification α)}
    {key : Key} {last : Notification α} (replay : Replay items notes after)
    (told : LastWith (Notification.IsAbout · key) notes last) : after[key]? = last.left? := by
  obtain ⟨early, late, rfl, about, silent⟩ := told
  obtain ⟨middle, _, replay⟩ := replay.split
  cases replay with
  | added keyed absent later =>
      obtain rfl := Except.ok.inj (keyed.symm.trans about)
      rw [later.getElem?_eq silent]
      exact Std.ExtTreeMap.getElem?_insert_self
  | updated keyed present later =>
      obtain rfl := Except.ok.inj (keyed.symm.trans about)
      rw [later.getElem?_eq silent]
      exact Std.ExtTreeMap.getElem?_insert_self
  | deleted keyed later =>
      obtain rfl := Except.ok.inj (keyed.symm.trans about)
      rw [later.getElem?_eq silent]
      exact Std.ExtTreeMap.getElem?_erase_self

namespace Index

/-- The calls that batches give rise to: their notifications, each with the view after its batch. -/
def calls (index : Index α) : List (List (Delta α)) → List (Notification α × Snapshot α)
  | [] => []
  | batch :: rest =>
      (index.apply batch).2.map (·, (index.apply batch).1.freeze) ++
        (index.apply batch).1.calls rest

theorem calls_append (index : Index α) (first second : List (List (Delta α))) :
    index.calls (first ++ second) = index.calls first ++ (index.applyAll first).calls second := by
  induction first generalizing index with
  | nil => rfl
  | cons batch rest ih =>
      have later : index.applyAll (batch :: rest) = (index.apply batch).1.applyAll rest := rfl
      simp only [List.cons_append, calls, ih, later, List.append_assoc]

theorem applyAll_concat (index : Index α) (batches : List (List (Delta α)))
    (batch : List (Delta α)) :
    index.applyAll (batches ++ [batch]) = ((index.applyAll batches).apply batch).1 :=
  List.foldl_append

theorem calls_concat (index : Index α) (batches : List (List (Delta α))) (batch : List (Delta α)) :
    index.calls (batches ++ [batch]) = index.calls batches ++
      ((index.applyAll batches).apply batch).2.map (·, (index.applyAll (batches ++ [batch])).freeze) := by
  rw [calls_append, applyAll_concat, calls, calls, List.append_nil]

theorem mem_calls {index : Index α} {batches : List (List (Delta α))}
    {call : Notification α × Snapshot α} (called : call ∈ index.calls batches) :
    ∃ early batch late, batches = early ++ batch :: late ∧
      call.1 ∈ ((index.applyAll early).apply batch).2 ∧
      call.2 = ((index.applyAll early).apply batch).1.freeze := by
  induction batches generalizing index with
  | nil => contradiction
  | cons batch rest ih =>
      rcases List.mem_append.mp called with here | later
      · obtain ⟨note, told, rfl⟩ := List.mem_map.mp here
        exact ⟨[], batch, rest, rfl, told, rfl⟩
      · obtain ⟨early, other, late, rfl, told, view⟩ := ih later
        exact ⟨batch :: early, other, late, rfl, told, view⟩

theorem epoch_applyAll (batches : List (List (Delta α))) :
    (({} : Index α).applyAll batches).epoch = batches.length := by
  rw [applyAll_eq]
  exact Nat.zero_add _

theorem synced_upsert (index : Index α) (object : α) :
    (index.upsert object).1.synced = index.synced := by
  unfold upsert
  cases Resource.key object with
  | error fault => rfl
  | ok key =>
      simp only [put]
      cases index.items[key]? <;> rfl

theorem initDone_of_synced {index : Index α} {deltas : List (Delta α)}
    (synced : (index.steps deltas).1.synced = true) (before : index.synced = false) :
    .initDone ∈ deltas := by
  induction deltas generalizing index with
  | nil => simp [steps, before] at synced
  | cons delta rest ih =>
      have goOn (same : (index.step delta).1.synced = index.synced) : .initDone ∈ delta :: rest :=
        List.mem_cons_of_mem _ (ih synced (same.trans before))
      cases delta with
      | applied object => exact goOn (index.synced_upsert object)
      | initApplied object =>
          have seen : (index.see object).synced = index.synced := by
            unfold see
            split <;> rfl
          exact goOn (((index.see object).synced_upsert object).trans seen)
      | deleted object =>
          refine goOn ?_
          simp only [step]
          cases Resource.key object with
          | error fault => rfl
          | ok key =>
              simp only [remove]
              cases index.items[key]? <;> rfl
      | init => exact goOn rfl
      | initDone => exact List.mem_cons_self ..

end Index

namespace Chronicle

def start (capacity : Nat) : Chronicle α := { ingest := .ofCapacity capacity }

omit [Resource α] in
/-- The batch that the task takes next, if it takes one. -/
def due (chronicle : Chronicle α) : List (List (Delta α)) :=
  match chronicle.ingest.stage, chronicle.ingest.channel.buffered.take Ingest.batchLimit with
  | .idle, first :: rest => [first :: rest]
  | _, _ => []

/-- What is on record after a step of the task. -/
def record (chronicle : Chronicle α) (after : Ingest α) (note? : Option (Notification α)) :
    Chronicle α where
  ingest := after
  sent := chronicle.sent
  batches := chronicle.batches ++ chronicle.due
  handed := chronicle.handed ++ note?.toList.map (·, after.snapshot)

/-- Deltas are sent at any time, and the task makes its steps. A delta that waits for room in the
channel gets it while the task takes a batch out, so that a batch may be larger than the channel:
here nobody waits for room. -/
inductive Step (chronicle : Chronicle α) : Chronicle α → Prop where
  | send (delta : Delta α) (sending : chronicle.ingest.channel.sending = true) :
      Step chronicle
        { chronicle with
          ingest := { chronicle.ingest with channel := chronicle.ingest.channel.push delta }
          sent := chronicle.sent ++ [delta] }
  | close :
      Step chronicle
        { chronicle with
          ingest := { chronicle.ingest with channel := chronicle.ingest.channel.closeSender } }
  | task (after : Ingest α) (note? : Option (Notification α))
      (moved : chronicle.ingest.step? = some (after, note?)) :
      Step chronicle (chronicle.record after note?)

inductive Reachable : Chronicle α → Prop where
  | start (capacity : Nat) : Reachable (start capacity)
  | step {chronicle after : Chronicle α} (earlier : Reachable chronicle)
      (stepped : Step chronicle after) : Reachable after

/-- Whether some batch had an `initDone`, and all the calls up to the last of that batch were made. -/
def Announced (chronicle : Chronicle α) : Prop :=
  ∃ early batch late, chronicle.batches = early ++ batch :: late ∧ .initDone ∈ batch ∧
    ({} : Index α).calls (early ++ [batch]) <+: chronicle.handed

/-- The task has taken in the batches on record, and the calls that they give rise to were made but
for those that are pending. -/
structure Kept (chronicle : Chronicle α) : Prop where
  whole : chronicle.batches.flatten ++ chronicle.ingest.channel.buffered = chronicle.sent
  index : chronicle.ingest.index = ({} : Index α).applyAll chronicle.batches
  view : chronicle.ingest.snapshot = chronicle.ingest.index.freeze
  calls : chronicle.handed ++ chronicle.ingest.pending.map (·, chronicle.ingest.snapshot) =
    ({} : Index α).calls chronicle.batches
  signal (synced : chronicle.ingest.synced = true) : chronicle.Announced

namespace Kept

variable {chronicle after : Chronicle α}

theorem publish (kept : chronicle.Kept) (idle : chronicle.ingest.stage = .idle)
    {batch : List (Delta α)}
    (taken : chronicle.ingest.channel.buffered.take Ingest.batchLimit = batch) :
    Kept { chronicle with
      ingest := chronicle.ingest.publish batch, batches := chronicle.batches ++ [batch] } where
  whole := by
    have first : batch <+: chronicle.ingest.channel.buffered := taken ▸ List.take_prefix ..
    have same := List.prefix_iff_eq_append.mp first
    change (chronicle.batches ++ [batch]).flatten ++
      chronicle.ingest.channel.buffered.drop batch.length = chronicle.sent
    rw [List.flatten_append, List.append_assoc, List.flatten_singleton, same]
    exact kept.whole
  index := by
    rw [Index.applyAll_concat, ← kept.index]
    rfl
  view := rfl
  calls := by
    have nothing : chronicle.ingest.pending = [] := by simp [Ingest.pending, idle]
    have before := kept.calls
    rw [nothing, List.map_nil, List.append_nil] at before
    rw [Index.calls_concat, Index.applyAll_concat, ← kept.index, before]
    rfl
  signal synced := by
    obtain ⟨early, done, late, same, listed, made⟩ := kept.signal synced
    exact ⟨early, done, late ++ [batch], by simp [same], listed, made⟩

theorem hand (kept : chronicle.Kept) {note : Notification α} {rest : List (Notification α)}
    (stage : chronicle.ingest.stage = .notifying (note :: rest)) :
    Kept { chronicle with
      ingest := { chronicle.ingest with stage := .notifying rest }
      handed := chronicle.handed ++ [(note, chronicle.ingest.snapshot)] } where
  whole := kept.whole
  index := kept.index
  view := kept.view
  calls := by
    have before := kept.calls
    simp only [Ingest.pending, stage, List.map_cons] at before
    rw [← before]
    simp [Ingest.pending]
  signal synced := by
    obtain ⟨early, done, late, same, listed, made⟩ := kept.signal synced
    exact ⟨early, done, late, same, listed, made.trans (List.prefix_append ..)⟩

/-- After the last call of a batch the signal is right, if an `initDone` was taken in. -/
theorem announced (kept : chronicle.Kept) (stage : chronicle.ingest.stage = .notifying [])
    (synced : chronicle.ingest.index.synced = true) : chronicle.Announced := by
  rw [kept.index, Index.applyAll_eq] at synced
  obtain ⟨batch, member, listed⟩ := List.mem_flatten.mp (Index.initDone_of_synced synced rfl)
  obtain ⟨early, late, same⟩ := List.append_of_mem member
  refine ⟨early, batch, late, same, listed, ?_⟩
  have made := kept.calls
  simp only [Ingest.pending, stage, List.map_nil, List.append_nil] at made
  have whole : early ++ batch :: late = (early ++ [batch]) ++ late := by simp
  rw [made, same, whole, Index.calls_append _ (early ++ [batch])]
  exact List.prefix_append ..

theorem task (kept : chronicle.Kept) {next : Ingest α} {note? : Option (Notification α)}
    (moved : chronicle.ingest.step? = some (next, note?)) : (chronicle.record next note?).Kept := by
  rcases Ingest.step?_cases moved with ⟨batch, idle, taken, arrived, rfl, rfl⟩ |
    ⟨note, rest, stage, rfl, rfl⟩ | ⟨stage, rfl, rfl⟩ | ⟨stage, nothing, rfl, rfl⟩
  · have due : chronicle.due = [batch] := by
      obtain ⟨first, rest, rfl⟩ := List.exists_cons_of_ne_nil arrived
      simp only [Chronicle.due, idle, taken]
    simpa [record, due] using kept.publish idle taken
  · have due : chronicle.due = [] := by simp only [Chronicle.due, stage]
    simpa [record, due] using kept.hand stage
  · have due : chronicle.due = [] := by simp only [Chronicle.due, stage]
    simp only [record, due, List.append_nil, Option.toList_none, List.map_nil]
    refine ⟨kept.whole, kept.index, kept.view, ?_, fun synced => ?_⟩
    · have calls := kept.calls
      simp only [Ingest.pending, stage] at calls
      exact calls
    · rcases Bool.or_eq_true_iff.mp synced with already | now
      · exact kept.signal already
      · exact kept.announced stage now
  · have due : chronicle.due = [] := by simp only [Chronicle.due, stage, nothing]
    simp only [record, due, List.append_nil, Option.toList_none, List.map_nil]
    refine ⟨kept.whole, kept.index, kept.view, ?_, kept.signal⟩
    have calls := kept.calls
    simp only [Ingest.pending, stage] at calls
    exact calls

theorem step (kept : chronicle.Kept) (stepped : Step chronicle after) : after.Kept := by
  cases stepped with
  | send delta sending =>
      refine ⟨?_, kept.index, kept.view, kept.calls, kept.signal⟩
      change chronicle.batches.flatten ++ (chronicle.ingest.channel.buffered ++ [delta]) = _
      rw [← List.append_assoc, kept.whole]
  | close => exact ⟨kept.whole, kept.index, kept.view, kept.calls, kept.signal⟩
  | task next note? moved => exact kept.task moved

theorem of_reachable (reachable : Reachable chronicle) : chronicle.Kept := by
  induction reachable with
  | start capacity => exact ⟨rfl, rfl, rfl, rfl, fun synced => nomatch synced⟩
  | step _ stepped ih => exact ih.step stepped

end Kept

theorem Step.synced {chronicle after : Chronicle α} (stepped : Step chronicle after)
    (synced : chronicle.ingest.synced = true) : after.ingest.synced = true := by
  cases stepped with
  | send delta sending => exact synced
  | close => exact synced
  | task next note? moved =>
      change next.synced = true
      rcases Ingest.step?_cases moved with ⟨batch, _, _, _, _, rfl⟩ | ⟨note, rest, _, _, rfl⟩ |
        ⟨_, _, rfl⟩ | ⟨_, _, _, rfl⟩
      · exact synced
      · exact synced
      · simp [synced]
      · exact synced

/-- The batches of a cache are cut from what was sent, in order, and each of them is one epoch of the
published view. Whoever is handed a notification finds the view after its whole batch: there is
nothing under its key exactly if the last notification about that key in the batch is a deletion, and
else the object of that notification. The calls come batch by batch, in order. The sync signal comes
after the calls of a batch with an `initDone` and of all batches before, and stays. -/
theorem orderly_of_reachable {chronicle : Chronicle α} (reachable : Reachable chronicle) :
    chronicle.batches.flatten ++ chronicle.ingest.channel.buffered = chronicle.sent ∧
    chronicle.ingest.snapshot = (({} : Index α).applyAll chronicle.batches).freeze ∧
    chronicle.ingest.snapshot.epoch = chronicle.batches.length ∧
    chronicle.handed <+: ({} : Index α).calls chronicle.batches ∧
    (∀ note view, (note, view) ∈ chronicle.handed →
      ∃ early batch late, chronicle.batches = early ++ batch :: late ∧
        note ∈ ((({} : Index α).applyAll early).apply batch).2 ∧
        view = ((({} : Index α).applyAll early).apply batch).1.freeze ∧
        view.epoch = early.length + 1 ∧
        ∀ key, note.IsAbout key → ∃ last,
          LastWith (Notification.IsAbout · key) ((({} : Index α).applyAll early).apply batch).2 last ∧
          (view.get? key = none ↔ ∃ gone, last = .deleted gone) ∧
          ((∀ gone, last ≠ .deleted gone) → view.get? key = some last.object)) ∧
    (chronicle.ingest.synced = true → chronicle.Announced) ∧
    ∀ later, Relation.ReflTransGen Step chronicle later →
      chronicle.ingest.synced = true → later.ingest.synced = true := by
  have kept := Kept.of_reachable reachable
  have view : chronicle.ingest.snapshot = (({} : Index α).applyAll chronicle.batches).freeze := by
    rw [kept.view, kept.index]
  have made : chronicle.handed <+: ({} : Index α).calls chronicle.batches :=
    kept.calls ▸ List.prefix_append ..
  refine ⟨kept.whole, view, ?_, made, ?_, kept.signal, ?_⟩
  · rw [view]
    exact Index.epoch_applyAll chronicle.batches
  · intro note view handed
    obtain ⟨early, batch, late, same, told, shown⟩ := Index.mem_calls (made.subset handed)
    refine ⟨early, batch, late, same, told, shown, ?_, fun key about => ?_⟩
    · rw [show view = _ from shown]
      exact congrArg (· + 1) (Index.epoch_applyAll early)
    · obtain ⟨last, latest⟩ : ∃ last, LastWith (Notification.IsAbout · key) _ last :=
        exists_lastWith ⟨note, told, about⟩
      have consistent : (({} : Index α).applyAll early).Consistent :=
        Index.Consistent.empty.applyAll early
      have found : view.get? key = last.left? := by
        rw [show view = _ from shown]
        exact (Index.apply_replay _ batch consistent.keyed).getElem?_last latest
      refine ⟨last, latest, ?_, fun stays => ?_⟩
      · rw [found, Notification.left?_eq_none_iff]
      · rw [found, Notification.left?_eq_object stays]
  · intro later run synced
    induction run with
    | refl => exact synced
    | tail _ stepped ih => exact stepped.synced ih

/-- A listing arrives in a channel for one delta, and is taken as one batch. The service is replaced
in the same batch, so whoever is told that it was added finds the newer one. -/
theorem orderly_of_relisted :
    let service (uid : String) : Service := { metadata := { name := some "web", uid := some uid } }
    let batch : List (Delta Service) :=
      [.init, .initApplied (service "1"), .initDone, .applied (service "2")]
    let view := (({} : Index Service).apply batch).1.freeze
    ∃ chronicle : Chronicle Service, Reachable chronicle ∧
      (.added (service "1"), view) ∈ chronicle.handed ∧
      chronicle.ingest.synced = true ∧ chronicle.Announced ∧
      chronicle.ingest.snapshot.epoch = 1 ∧
      view.get? ⟨none, "web"⟩ = some (service "2") ∧ view.epoch = 1 := by
  intro service batch view
  let arrived : Ingest Service :=
    { channel := { capacity := 1, buffered := batch } }
  let published := arrived.publish batch
  have notes : (({} : Index Service).apply batch).2 =
      [.added (service "1"), .updated (service "1") (service "2")] := by decide +kernel
  have stage : published.stage =
      .notifying [.added (service "1"), .updated (service "1") (service "2")] :=
    congrArg IngestStage.notifying notes
  have synced : published.index.synced = true := by decide +kernel
  have sent : Reachable { ingest := arrived, sent := batch } :=
    .step (.step (.step (.step (.start 1) (.send .init rfl)) (.send _ rfl)) (.send _ rfl))
      (.send _ rfl)
  have taken : Reachable { ingest := published, sent := batch, batches := [batch] } :=
    .step sent (.task published none rfl)
  have added : Reachable
      { ingest := { published with stage := .notifying [.updated (service "1") (service "2")] }
        sent := batch, batches := [batch], handed := [(.added (service "1"), view)] } :=
    .step taken (.task _ (some (.added (service "1"))) (by simp only [Ingest.step?, stage]))
  have updated : Reachable
      { ingest := { published with stage := .notifying [] }
        sent := batch, batches := [batch]
        handed := [(.added (service "1"), view), (.updated (service "1") (service "2"), view)] } :=
    .step added (.task _ (some (.updated (service "1") (service "2"))) rfl)
  have done := Reachable.step updated (.task _ none rfl)
  obtain ⟨_, _, epoch, _, _, announced, _⟩ := orderly_of_reachable done
  exact ⟨_, done, List.mem_cons_self .., synced, announced synced, epoch, by decide +kernel, rfl⟩

end Chronicle

end ReconcileLoop
