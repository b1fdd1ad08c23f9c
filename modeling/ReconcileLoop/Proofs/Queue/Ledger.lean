import ReconcileLoop.Proofs.Queue.Exclusion

namespace ReconcileLoop.Queue

/-! # What a queue was told and what it handed out

A ledger lists what happened at a queue: adds, items handed out, items released. Which items wait,
which are held and in which order they came into line can be read off it without the queue, and
`Queue.Accounts` says that the queue agrees. Every operation keeps that, as long as only items that
are held are released and the queue is not shut down.
-/

inductive Entry (κ : Type) where
  | added (item : κ)
  | handed (item : κ)
  | released (item : κ)
deriving DecidableEq, Repr

/-- What happened at a queue, the newest first. -/
abbrev Ledger (κ : Type) := List (Entry κ)

variable {κ : Type} [DecidableEq κ]

namespace Ledger

omit [DecidableEq κ] in
/-- Whether an item was added and not handed out since. -/
def Waits (item : κ) : Ledger κ → Prop
  | [] => False
  | .added other :: earlier => other = item ∨ Waits item earlier
  | .handed other :: earlier => other ≠ item ∧ Waits item earlier
  | .released _ :: earlier => Waits item earlier

instance decidableWaits (item : κ) : (ledger : Ledger κ) → Decidable (Waits item ledger)
  | [] => isFalse id
  | .added other :: earlier =>
      have := decidableWaits item earlier
      inferInstanceAs (Decidable (other = item ∨ Waits item earlier))
  | .handed other :: earlier =>
      have := decidableWaits item earlier
      inferInstanceAs (Decidable (other ≠ item ∧ Waits item earlier))
  | .released _ :: earlier => decidableWaits item earlier

/-- Whether an item was handed out more often than it was released. -/
def Held (item : κ) (ledger : Ledger κ) : Prop :=
  ledger.count (.released item) < ledger.count (.handed item)

instance (item : κ) (ledger : Ledger κ) : Decidable (Held item ledger) :=
  inferInstanceAs (Decidable (_ < _))

omit [DecidableEq κ] in
/-- The items that were handed out, the first one first. -/
def handedOut : Ledger κ → List κ
  | [] => []
  | .handed item :: earlier => handedOut earlier ++ [item]
  | .added _ :: earlier => handedOut earlier
  | .released _ :: earlier => handedOut earlier

/-- The items in the order in which they came into line: with the add, unless the item waits
already or is held, and with the release if the item was added while it was held. -/
def entered : Ledger κ → List κ
  | [] => []
  | .added item :: earlier =>
      if Waits item earlier ∨ Held item earlier then entered earlier else entered earlier ++ [item]
  | .handed _ :: earlier => entered earlier
  | .released item :: earlier =>
      if Waits item earlier ∧ Held item earlier then entered earlier ++ [item]
      else entered earlier

/-- What was added and does not wait any more was handed out after that. -/
theorem waits_or_handed {newer earlier : Ledger κ} {item : κ} :
    Waits item (newer ++ .added item :: earlier) ∨ .handed item ∈ newer := by
  induction newer with
  | nil => exact .inl (.inl rfl)
  | cons entry rest ih =>
      rcases ih with waits | handed
      · cases entry with
        | added other => exact .inl (.inr waits)
        | released other => exact .inl waits
        | handed other =>
            by_cases same : other = item
            · subst same
              exact .inr (List.mem_cons_self ..)
            · exact .inl ⟨same, waits⟩
      · exact .inr (List.mem_cons_of_mem _ handed)

end Ledger

/-- What waits is ready, or parked with whoever holds it. -/
def Parks (queue : Queue κ) : Prop :=
  ∀ item ∈ queue.dirty, item ∈ queue.ready ∨ item ∈ queue.processing

theorem add_cases {queue : Queue κ} (up : queue.down = false) (item : κ) :
    item ∈ queue.dirty ∧ queue.add item = queue ∨
    item ∉ queue.dirty ∧ item ∈ queue.processing ∧
      queue.add item = { queue with dirty := item :: queue.dirty, adds := queue.adds + 1 } ∨
    item ∉ queue.dirty ∧ item ∉ queue.processing ∧
      queue.add item =
        { queue with dirty := item :: queue.dirty, adds := queue.adds + 1 }.push item := by
  by_cases waits : item ∈ queue.dirty
  · exact .inl ⟨waits, by simp [add, up, waits]⟩
  · by_cases held : item ∈ queue.processing
    · exact .inr (.inl ⟨waits, held, by simp [add, up, waits, held]⟩)
    · exact .inr (.inr ⟨waits, held, by simp [add, up, waits, held]⟩)

theorem adds_of_take? {queue after : Queue κ} {item : κ}
    (taken : queue.take? = some (item, after)) : after.adds = queue.adds := by
  unfold take? at taken
  split at taken
  · contradiction
  · split at taken
    · contradiction
    · cases taken; rfl

@[simp] theorem adds_done (queue : Queue κ) (item : κ) : (queue.done item).adds = queue.adds := by
  unfold done
  simp only
  split <;> rfl

namespace Parks

variable {queue after : Queue κ} {item : κ}

theorem add (parks : queue.Parks) (up : queue.down = false) (item : κ) :
    (queue.add item).Parks := by
  intro other waits
  rw [mem_dirty_add up] at waits
  rw [processing_add, ready_add]
  by_cases held : other ∈ queue.processing
  · exact .inr held
  · refine .inl ?_
    rcases waits with rfl | before
    · split
      · simp
      · next blocked =>
          have dirty : other ∈ queue.dirty :=
            Decidable.byContradiction fun clean => blocked ⟨up, clean, held⟩
          exact (parks other dirty).resolve_right held
    · have ready := (parks other before).resolve_right held
      split
      · exact List.mem_append_left _ ready
      · exact ready

theorem take? (parks : queue.Parks) (taken : queue.take? = some (item, after)) : after.Parks := by
  obtain ⟨_, ready, dirty, processing⟩ := take?_eq_some taken
  intro other waits
  rw [dirty] at waits
  rw [processing, List.mem_insert_iff]
  rcases parks other (List.mem_of_mem_erase waits) with first | held
  · rw [ready] at first
    rcases List.mem_cons.mp first with rfl | rest
    · exact .inr (.inl rfl)
    · exact .inl rest
  · exact .inr (.inr held)

theorem done (parks : queue.Parks) (up : queue.down = false) (item : κ) :
    (queue.done item).Parks := by
  intro other waits
  rw [dirty_done] at waits
  rw [processing_done, ready_done]
  by_cases same : other = item
  · subst same
    exact .inl (by simp [waits, up])
  · rcases parks other waits with ready | held
    · refine .inl ?_
      split
      · exact List.mem_append_left _ ready
      · exact ready
    · exact .inr ((List.mem_erase_of_ne same).mpr held)

end Parks

/-- A queue is as its ledger says. -/
structure Accounts (queue : Queue κ) (ledger : Ledger κ) : Prop where
  up : queue.down = false
  exclusive : queue.Exclusive
  parks : queue.Parks
  waits (item : κ) : item ∈ queue.dirty ↔ Ledger.Waits item ledger
  held (item : κ) :
    ledger.count (.handed item) = ledger.count (.released item) + queue.processing.count item
  order : Ledger.entered ledger = Ledger.handedOut ledger ++ queue.ready
  adds : queue.adds = (Ledger.handedOut ledger).length + queue.dirty.length

namespace Accounts

variable {queue : Queue κ} {ledger : Ledger κ}

theorem empty : ({} : Queue κ).Accounts [] where
  up := rfl
  exclusive := .empty
  parks := by simp [Parks]
  waits := by simp [Ledger.Waits]
  held := by simp
  order := rfl
  adds := rfl

theorem held_iff (accounts : queue.Accounts ledger) (item : κ) :
    Ledger.Held item ledger ↔ item ∈ queue.processing := by
  rw [Ledger.Held, accounts.held item, ← List.count_pos_iff]
  omega

theorem add (accounts : queue.Accounts ledger) (item : κ) :
    (queue.add item).Accounts (.added item :: ledger) where
  up := by rw [down_add]; exact accounts.up
  exclusive := accounts.exclusive.add item
  parks := accounts.parks.add accounts.up item
  waits := by
    intro other
    rw [mem_dirty_add accounts.up, accounts.waits other, Ledger.Waits, eq_comm]
  held := by
    intro other
    rw [processing_add]
    simpa using accounts.held other
  order := by
    have waiting := accounts.waits item
    have holding := accounts.held_iff item
    rw [Ledger.entered, Ledger.handedOut, accounts.order]
    rcases add_cases accounts.up item with ⟨waits, same⟩ | ⟨clean, held, same⟩ | ⟨clean, free, same⟩
    · rw [same, if_pos (.inl (waiting.mp waits))]
    · rw [same, if_pos (.inr (holding.mpr held))]
    · have outside : ¬(Ledger.Waits item ledger ∨ Ledger.Held item ledger) := by
        rw [← waiting, holding]
        exact not_or.mpr ⟨clean, free⟩
      rw [same, if_neg outside, ready_push, List.append_assoc]
  adds := by
    have before := accounts.adds
    rw [Ledger.handedOut]
    rcases add_cases accounts.up item with ⟨waits, same⟩ | ⟨clean, held, same⟩ | ⟨clean, free, same⟩
    · rw [same]
      exact before
    · simp only [same, List.length_cons]
      omega
    · simp only [same, push, List.length_cons]
      omega

theorem take? (accounts : queue.Accounts ledger) {after : Queue κ} {item : κ}
    (taken : queue.take? = some (item, after)) : after.Accounts (.handed item :: ledger) where
  up := down_of_take? taken
  exclusive := accounts.exclusive.take? taken
  parks := accounts.parks.take? taken
  waits := by
    intro other
    obtain ⟨_, _, dirty, _⟩ := take?_eq_some taken
    rw [dirty, accounts.exclusive.dirty_nodup.mem_erase_iff, accounts.waits other, Ledger.Waits,
      ne_comm]
  held := by
    intro other
    have before := accounts.held other
    obtain ⟨_, _, _, processing⟩ := take?_eq_some taken
    rw [List.insert_of_not_mem (accounts.exclusive.free_of_take? taken)] at processing
    rw [processing, List.count_cons, List.count_cons, List.count_cons]
    by_cases same : item = other
    · subst same
      simp
      omega
    · simp [same]
      omega
  order := by
    obtain ⟨_, ready, _, _⟩ := take?_eq_some taken
    rw [Ledger.entered, Ledger.handedOut, accounts.order, ready, List.append_assoc]
    rfl
  adds := by
    have before := accounts.adds
    obtain ⟨_, ready, dirty, _⟩ := take?_eq_some taken
    have waits : item ∈ queue.dirty := accounts.exclusive.ready_dirty item (by simp [ready])
    have some_wait := List.length_pos_of_mem waits
    rw [adds_of_take? taken, Ledger.handedOut, List.length_append, dirty,
      List.length_erase_of_mem waits, List.length_singleton]
    omega

theorem done (accounts : queue.Accounts ledger) {item : κ} (held : Ledger.Held item ledger) :
    (queue.done item).Accounts (.released item :: ledger) where
  up := by rw [down_done]; exact accounts.up
  exclusive := accounts.exclusive.done ((accounts.held_iff item).mp held)
  parks := accounts.parks.done accounts.up item
  waits := by
    intro other
    rw [dirty_done]
    exact accounts.waits other
  held := by
    intro other
    have before := accounts.held other
    have member := (accounts.held_iff item).mp held
    rw [processing_done, List.count_cons, List.count_cons]
    by_cases same : item = other
    · subst same
      have some_held := List.count_pos_iff.mpr member
      rw [List.count_erase_self]
      simp
      omega
    · rw [List.count_erase_of_ne (Ne.symm same)]
      simp [same]
      omega
  order := by
    have waiting := accounts.waits item
    rw [Ledger.entered, Ledger.handedOut, ready_done, accounts.order]
    by_cases waits : item ∈ queue.dirty
    · rw [if_pos ⟨waiting.mp waits, held⟩, if_pos ⟨waits, accounts.up⟩, List.append_assoc]
    · rw [if_neg (fun both => waits (waiting.mpr both.1)), if_neg (fun both => waits both.1)]
  adds := by
    rw [adds_done, dirty_done]
    exact accounts.adds

end Accounts

end ReconcileLoop.Queue
