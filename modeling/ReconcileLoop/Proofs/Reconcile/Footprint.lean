import ReconcileLoop.Proofs.Reconcile.Recovered

namespace ReconcileLoop

/-! # The footprint of a pass

A calm pass changes a place of a kind only if an object is there that has to go, or nothing is there
and its primary asks for that place (`Order.Touches`). Orders that are clear of each other so change
different places, and it does not matter which of them is followed first (`Order.Ends.commute`).
`Reconciler.Footprint` says of a whole pass what it leaves in each place.
-/

namespace Order

variable {δ : Type} [Resource δ] {order other : Order δ} {items : Std.ExtTreeMap Key δ} {key : Key}
  {reaches also : Prop} {after : Option δ}

/-- Whether what is in a place is changed, if the kind is reached. -/
def Touches (order : Order δ) (reaches : Prop) (key : Key) : Option δ → Prop
  | some held => reaches ∧ order.extra held = true
  | none => reaches ∧ ∃ object, order.wanted = some (key, object)

theorem Ends.untouched {before : Option δ} (ends : order.Ends reaches key before after)
    (free : ¬order.Touches reaches key before) : after = before := by
  by_cases reached : reaches
  · cases ends.turn with
    | kept => rfl
    | dropped extra => exact absurd ⟨reached, extra⟩ free
    | made wanted _ => exact absurd ⟨reached, _, wanted⟩ free
  · exact ends.stays reached

/-- Nothing that is ordered to come or to go has to do with what another order says. -/
structure Clear (order other : Order δ) (items : Std.ExtTreeMap Key δ) : Prop where
  places {place : Key} {object theirs : δ} (wanted : order.wanted = some (place, object)) :
    other.wanted ≠ some (place, theirs)
  held {place : Key} {object held : δ} (wanted : order.wanted = some (place, object))
    (present : items[place]? = some held) : other.extra held = false
  made {place : Key} {object written : δ} (wanted : order.wanted = some (place, object))
    (stamp : Store.StampOf object written) : other.extra written = false
  gone {object : δ} (extra : order.extra object = true) : other.extra object = false

namespace Clear

theorem not_touches_wanted (clear : order.Clear other items) {object : δ}
    (wanted : order.wanted = some (key, object)) : ¬other.Touches also key items[key]? := by
  cases present : items[key]? with
  | some held =>
      rintro ⟨_, extra⟩
      simp [clear.held wanted present] at extra
  | none =>
      rintro ⟨_, theirs, asked⟩
      exact clear.places wanted asked

theorem not_touches (clear : order.Clear other items)
    (touches : order.Touches reaches key items[key]?) : ¬other.Touches also key items[key]? := by
  cases present : items[key]? with
  | some held =>
      rw [present] at touches
      rintro ⟨_, extra⟩
      simp [clear.gone touches.2] at extra
  | none =>
      rw [present] at touches
      obtain ⟨_, object, wanted⟩ := touches
      have free : ¬other.Touches also key items[key]? := clear.not_touches_wanted wanted
      rwa [present] at free

theorem not_touches_after (clear : order.Clear other items) (back : other.Clear order items)
    (touches : order.Touches reaches key items[key]?)
    (ends : order.Ends reaches key items[key]? after) : ¬other.Touches also key after := by
  cases present : items[key]? with
  | some held =>
      rw [present] at touches ends
      obtain ⟨reached, extra⟩ := touches
      cases ends.turn with
      | kept => simp [ends.clean reached rfl] at extra
      | dropped _ =>
          rintro ⟨_, theirs, wanted⟩
          simp [back.held wanted present] at extra
  | none =>
      rw [present] at touches ends
      obtain ⟨reached, object, wanted⟩ := touches
      cases ends.turn with
      | kept =>
          obtain ⟨held, impossible⟩ := ends.there reached wanted
          contradiction
      | made asked stamp =>
          rintro ⟨_, extra⟩
          simp [clear.made asked stamp] at extra

end Clear

/-- What two clear orders leave in a place does not depend on which is followed first. -/
theorem Ends.commute [LawfulResource δ] {middle last : Option δ}
    (clear : order.Clear other items) (back : other.Clear order items)
    (first : order.Ends reaches key items[key]? middle) (second : other.Ends also key middle last)
    {between final : Option δ} (sooner : other.Ends also key items[key]? between)
    (later : order.Ends reaches key between final) :
    last = final ∨ items[key]? = none ∧ ∃ left right,
      last = some left ∧ final = some right ∧ Store.Alike left right := by
  by_cases touches : order.Touches reaches key items[key]?
  · have spared : between = items[key]? := sooner.untouched (clear.not_touches touches)
    have kept : last = middle := second.untouched (clear.not_touches_after back touches first)
    subst kept
    rw [spared] at later
    exact first.twins later
  · have spared : middle = items[key]? := first.untouched touches
    rw [spared] at second
    have kept : final = between := by
      refine later.untouched fun touched => ?_
      by_cases theirs : other.Touches also key items[key]?
      · exact back.not_touches_after clear theirs sooner touched
      · rw [sooner.untouched theirs] at touched
        exact touches touched
    subst kept
    exact second.twins sooner

end Order

theorem Order.obstacle?_congr {δ : Type} {order : Order δ} {first second : Std.ExtTreeMap Key δ}
    (same : ∀ place object, order.wanted = some (place, object) → second[place]? = first[place]?) :
    order.obstacle? second = order.obstacle? first := by
  unfold obstacle?
  cases wanted : order.wanted with
  | none => rfl
  | some entry =>
      obtain ⟨place, object⟩ := entry
      simp only [same place object wanted]

variable {α σ : Type} [Primary α σ]

namespace Reconciler

/-- Whether a calm pass for a primary gets to one of its kinds. It does not even start for one that
is to go away. -/
def Reaches (reconciler : Reconciler α σ) (world : World α) (primary : α)
    (dependent : Dependent α σ) : Prop :=
  (Resource.metadata primary).deletionTimestamp = none ∧
    dependent ∈ Dependent.reached world primary reconciler.dependents

/-- What a calm pass for a primary fails for. -/
def obstacle? (reconciler : Reconciler α σ) (world : World α) (primary : α) :
    Option ReconcileError :=
  if (Resource.metadata primary).deletionTimestamp.isNone then
    Dependent.firstObstacle? world primary reconciler.dependents
  else none

/-- Whether a calm pass that leads from one world to another has a status to write. -/
def Writes (reconciler : Reconciler α σ) (primary : α) (before after : World α) : Prop :=
  (Resource.metadata primary).deletionTimestamp = none ∧
    reconciler.obstacle? before primary = none ∧
    reconciler.observed after primary ≠ Primary.status primary

/-- What a calm pass for a cached primary leaves, place by place. -/
structure Footprint (reconciler : Reconciler α σ) (key : Key) (primary : α) (before : World α)
    (outcome : PassOutcome α) : Prop where
  result : FailsFor (reconciler.obstacle? before primary) outcome.result
  ends : ∀ dependent ∈ reconciler.dependents, ∀ place,
    (dependent.order primary).Ends (reconciler.Reaches before primary dependent) place
      (before.stored dependent.type)[place]? (outcome.world.stored dependent.type)[place]?
  others (type : BuiltIn) (outside : ∀ dependent ∈ reconciler.dependents, dependent.type ≠ type) :
    outcome.world.stored type = before.stored type
  primaries (place : Key) (differs : place ≠ key) :
    outcome.world.primaries[place]? = before.primaries[place]?
  unwritten (idle : ¬reconciler.Writes primary before outcome.world) :
    outcome.world.primaries[key]? = some primary
  written (due : reconciler.Writes primary before outcome.world) : ∃ stored,
    Store.StampOf
        (Primary.setStatus primary (reconciler.observed outcome.world primary)) stored ∧
      outcome.world.primaries[key]? = some stored

variable {reconciler : Reconciler α σ} {world other : World α} {key : Key} {primary : α}

theorem obstacle?_of_staying
    (staying : (Resource.metadata primary).deletionTimestamp = none) :
    reconciler.obstacle? world primary =
      Dependent.firstObstacle? world primary reconciler.dependents := by
  rw [obstacle?, staying]
  rfl

/-- Whether two worlds hold the same in the places that a primary asks for. -/
def SamePlaces (reconciler : Reconciler α σ) (primary : α) (world other : World α) : Prop :=
  ∀ dependent ∈ reconciler.dependents, ∀ place object,
    dependent.template.wanted primary = some (place, object) →
      (other.stored dependent.type)[place]? = (world.stored dependent.type)[place]?

namespace SamePlaces

variable (same : reconciler.SamePlaces primary world other)

include same

theorem symm : reconciler.SamePlaces primary other world :=
  fun dependent member place object wanted => (same dependent member place object wanted).symm

theorem obstacle?_each : ∀ dependent ∈ reconciler.dependents,
    dependent.obstacle? other primary = dependent.obstacle? world primary :=
  fun dependent member => Order.obstacle?_congr (same dependent member)

theorem obstacle?_eq : reconciler.obstacle? other primary = reconciler.obstacle? world primary := by
  simp only [obstacle?, Dependent.firstObstacle?_congr same.obstacle?_each]

theorem reaches_eq : reconciler.Reaches other primary = reconciler.Reaches world primary := by
  funext dependent
  simp only [Reaches, Dependent.reached_congr same.obstacle?_each]

end SamePlaces

theorem Finished.footprint (lawful : reconciler.Lawful)
    (staying : (Resource.metadata primary).deletionTimestamp = none)
    (present : world.primaries[key]? = some primary) {outcome : PassOutcome α}
    (finished : reconciler.Finished key primary world outcome) :
    reconciler.Footprint key primary world outcome where
  result := by
    rw [obstacle?_of_staying staying]
    exact finished.result
  ends dependent member place := by
    refine (finished.toward.each lawful.distinct member).ends (fun missed => ?_) (fun reached => ?_)
      place
    · refine finished.toward.others dependent.type fun reached inside same => missed ⟨staying, ?_⟩
      have one : reached = dependent :=
        List.inj_on_of_nodup_map lawful.distinct (Dependent.mem_of_reached inside) member same
      exact one ▸ inside
    · exact finished.tidy dependent reached.2
  others type outside :=
    finished.toward.others type fun dependent member =>
      outside dependent (Dependent.mem_of_reached member)
  primaries place differs := by
    rcases finished.status with ⟨same, _⟩ | ⟨_, _, _, written, _, objects⟩
    · rw [same]
    · rw [objects, Std.ExtTreeMap.getElem?_insert]
      simp [differs.symm]
  unwritten idle := by
    rcases finished.status with ⟨same, _⟩ | ⟨free, _, differs, _⟩
    · rw [same, present]
    · refine absurd ⟨staying, ?_, differs⟩ idle
      rw [obstacle?_of_staying staying]
      exact Dependent.firstObstacle?_eq_none.mpr free
  written due := by
    obtain ⟨_, free, differs⟩ := due
    rw [obstacle?_of_staying staying] at free
    rcases finished.status with ⟨_, unchanged⟩ | ⟨_, _, _, written, stamp, objects⟩
    · exact absurd (unchanged free) differs
    · exact ⟨written, stamp, by rw [objects, Std.ExtTreeMap.getElem?_insert_self]⟩

variable [LawfulPrimary α]

/-- What passes for one primary leave of it depends only on what is in the places it asks for. -/
theorem Footprint.agree (lawful : reconciler.Lawful) (able : CanOwn primary)
    {first second : PassOutcome α} (one : reconciler.Footprint key primary world first)
    (also : reconciler.Footprint key primary other second)
    (same : reconciler.SamePlaces primary world other) :
    second.result = first.result ∧
      (first.world.primaries[key]? = second.world.primaries[key]? ∨ ∃ left right version,
        first.world.primaries[key]? = some left ∧ second.world.primaries[key]? = some right ∧
          right = Resource.withMetadata left
            { Resource.metadata left with resourceVersion := version }) := by
  have observed : reconciler.observed second.world primary =
      reconciler.observed first.world primary := by
    refine observed_alike lawful fun dependent member place object wanted => ?_
    have start := same dependent member place object wanted
    have here := one.ends dependent member place
    have there := also.ends dependent member place
    rw [start, same.reaches_eq] at there
    exact (here.twins there).imp_right And.right
  have due : reconciler.Writes primary other second.world ↔
      reconciler.Writes primary world first.world := by
    simp only [Writes, same.obstacle?_eq, observed]
  refine ⟨?_, ?_⟩
  · have result := also.result
    rw [same.obstacle?_eq] at result
    exact result.result_eq one.result
  · by_cases writes : reconciler.Writes primary world first.world
    · obtain ⟨left, stamp, here⟩ := one.written writes
      obtain ⟨right, later, there⟩ := also.written (due.mpr writes)
      rw [observed] at later
      obtain ⟨version, alike⟩ := reported_alike able stamp later
      exact .inr ⟨left, right, version, here, there, alike⟩
    · rw [one.unwritten writes, also.unwritten (due.not.mpr writes)]
      exact .inl rfl

variable [DecidableEq σ]

theorem Finished.of_calm (lawful : reconciler.Lawful) (inSync : world.InSync) (calm : world.Calm)
    (subject : world.subject? key = some primary) :
    reconciler.Finished key primary world (reconciler.pass world key) := by
  obtain ⟨present, _, _⟩ := inSync.subject subject
  have passed := pass_passed lawful inSync subject
  have completed := pass_completed lawful inSync calm subject
  refine ⟨completed.result, passed.toward, completed.tidy, ?_⟩
  rcases passed.status with same | reported
  · refine .inl ⟨same, fun free => ?_⟩
    by_contra differs
    obtain ⟨later, _, there, status⟩ := (completed.written free differs).later
    rw [same, present] at there
    cases there
    exact differs status.symm
  · exact .inr reported

theorem footprint_pass (lawful : reconciler.Lawful) (inSync : world.InSync) (calm : world.Calm)
    (present : world.primaries[key]? = some primary) :
    reconciler.Footprint key primary world (reconciler.pass world key) := by
  have filtered := inSync.subject?_eq key
  rw [present] at filtered
  cases marked : (Resource.metadata primary).deletionTimestamp with
  | none =>
      have subject : world.subject? key = some primary := by simp [filtered, marked]
      exact (Finished.of_calm lawful inSync calm subject).footprint lawful marked present
  | some time =>
      have gone : world.subject? key = none := by simp [filtered, marked]
      have going (dependent : Dependent α σ) :
          ¬reconciler.Reaches world primary dependent := by simp [Reaches, marked]
      have idle (after : World α) : ¬reconciler.Writes primary world after := by
        simp [Writes, marked]
      rw [pass_of_none reconciler gone]
      refine ⟨?_, fun dependent _ place => ?_, fun _ _ => rfl, fun _ _ => rfl, fun _ => present,
        fun due => absurd due (idle _)⟩
      · simp [obstacle?, marked, FailsFor]
      · exact ⟨.kept, fun _ => rfl, fun reached => absurd reached (going _),
          fun reached => absurd reached (going _)⟩

end Reconciler

end ReconcileLoop
