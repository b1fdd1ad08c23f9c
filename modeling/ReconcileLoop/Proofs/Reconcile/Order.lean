import ReconcileLoop.Proofs.Reconcile.InSync
import ReconcileLoop.Proofs.Reconcile.Lawful

namespace ReconcileLoop

/-! # What a primary orders

Of each kind of dependents a primary orders at most one to be there, and others to go. `Order.Toward`
says how far the objects of a store may have come on the way to that; it composes, and where nothing
is left to do (`Order.Tidy`) the way has led to the same objects whatever turns it took
(`Order.Toward.twins`).
-/

/-- What a primary orders of one kind. -/
structure Order (δ : Type) where
  wanted : Option (Key × δ)
  controls : δ → Bool
  extra : δ → Bool
  /-- The failure if somebody else's object is in the place of the one that is wanted. -/
  taken : Key → ReconcileError

def Store.Alike {δ : Type} [Resource δ] (first second : δ) : Prop :=
  ∃ uid version, second = Resource.withMetadata first
    { Resource.metadata first with uid := uid, resourceVersion := version }

theorem Store.StampOf.alike {δ : Type} [Resource δ] [LawfulResource δ] {object first second : δ}
    (one : Store.StampOf object first) (other : Store.StampOf object second) :
    Store.Alike first second := by
  obtain ⟨fresh, version, rfl⟩ := one
  obtain ⟨later, last, rfl⟩ := other
  refine ⟨some ((Resource.metadata object).uid.getD later), some (toString last), ?_⟩
  rw [LawfulResource.withMetadata_withMetadata, Resource.metadata_withMetadata]
  rfl

/-- Two ways that objects went on, which agree but for the stamps of what is new. -/
def Store.Twins {δ : Type} [Resource δ] (before first second : Std.ExtTreeMap Key δ) : Prop :=
  ∀ key : Key, first[key]? = second[key]? ∨
    before[key]? = none ∧ ∃ one other,
      first[key]? = some one ∧ second[key]? = some other ∧ Alike one other

namespace Order

variable {δ : Type} [Resource δ] {order : Order δ}

/-- The object that is wanted has its key, is never one that has to go, and belongs to the primary
once it is written. -/
structure Sound (order : Order δ) : Prop where
  own {key : Key} {object : δ} (wanted : order.wanted = some (key, object)) :
    Resource.key object = .ok key
  apart {key : Key} {object gone : δ} (wanted : order.wanted = some (key, object))
    (extra : order.extra gone = true) : Resource.key gone ≠ .ok key
  controlled {key : Key} {object written : δ} (wanted : order.wanted = some (key, object))
    (stamp : Store.StampOf object written) : order.controls written = true

/-- What may become of what is under a key. -/
inductive Turn (order : Order δ) (key : Key) : Option δ → Option δ → Prop where
  | kept {held? : Option δ} : Turn order key held? held?
  | dropped {gone : δ} (extra : order.extra gone = true) : Turn order key (some gone) none
  | made {object written : δ} (wanted : order.wanted = some (key, object))
      (stamp : Store.StampOf object written) : Turn order key none (some written)

/-- Objects on the way from others to what is ordered. -/
def Toward (order : Order δ) (before after : Std.ExtTreeMap Key δ) : Prop :=
  ∀ key, order.Turn key before[key]? after[key]?

/-- Nothing that has to go is there, and something is in the place of what is wanted. -/
structure Tidy (order : Order δ) (items : Std.ExtTreeMap Key δ) : Prop where
  clean {key : Key} {object : δ} (present : items[key]? = some object) : order.extra object = false
  there {key : Key} {object : δ} (wanted : order.wanted = some (key, object)) :
    ∃ held, items[key]? = some held

def found? (order : Order δ) (items : Std.ExtTreeMap Key δ) : Option δ :=
  order.wanted.bind fun entry => items[entry.1]?

/-- The failure that no pass can get around. -/
def obstacle? (order : Order δ) (items : Std.ExtTreeMap Key δ) : Option ReconcileError :=
  match order.wanted with
  | none => none
  | some (key, _) =>
      match items[key]? with
      | none => none
      | some held => if order.controls held then none else some (order.taken key)

end Order

/-- A run fails for what is in its way, and succeeds if nothing is. -/
def FailsFor {β : Type} (obstacle? : Option ReconcileError) (result : Except ReconcileError β) :
    Prop :=
  match obstacle? with
  | none => ∃ found, result = .ok found
  | some error => result = .error error

namespace FailsFor

variable {obstacle? : Option ReconcileError}

theorem free {β : Type} {found : β} (fails : FailsFor obstacle? (.ok found)) : obstacle? = none := by
  cases obstacle? with
  | none => rfl
  | some error => contradiction

theorem error_congr {β γ : Type} {error : ReconcileError}
    (fails : FailsFor obstacle? (.error error : Except ReconcileError β)) :
    FailsFor obstacle? (.error error : Except ReconcileError γ) := by
  cases obstacle? with
  | none =>
      obtain ⟨_, impossible⟩ := fails
      contradiction
  | some obstacle =>
      obtain rfl : error = obstacle := Except.error.inj fails
      rfl

theorem result_eq {first second : Except ReconcileError Unit} (one : FailsFor obstacle? first)
    (other : FailsFor obstacle? second) : first = second := by
  cases obstacle? with
  | none =>
      obtain ⟨_, rfl⟩ := one
      obtain ⟨_, rfl⟩ := other
      rfl
  | some error => exact one.trans other.symm

end FailsFor

namespace Order

variable {δ : Type} [Resource δ] {order : Order δ}

theorem Turn.trans (sound : order.Sound) {key : Key} {first second third : Option δ}
    (keyed : ∀ object, first = some object → Resource.key object = .ok key)
    (start : order.Turn key first second) (finish : order.Turn key second third) :
    order.Turn key first third := by
  cases start with
  | kept => exact finish
  | dropped extra =>
      cases finish with
      | kept => exact .dropped extra
      | made wanted _ => exact absurd (keyed _ rfl) (sound.apart wanted extra)
  | made wanted stamp =>
      cases finish with
      | kept => exact .made wanted stamp
      | dropped extra =>
          exact absurd (stamp.key_eq.trans (sound.own wanted)) (sound.apart wanted extra)

namespace Toward

variable {before after : Std.ExtTreeMap Key δ}

theorem refl (order : Order δ) (items : Std.ExtTreeMap Key δ) : order.Toward items items :=
  fun _ => .kept

theorem trans (sound : order.Sound) {middle : Std.ExtTreeMap Key δ} (keyed : Keyed before)
    (start : order.Toward before middle) (finish : order.Toward middle after) :
    order.Toward before after :=
  fun key => (start key).trans sound (keyed key) (finish key)

theorem erase {key : Key} {gone : δ} (present : before[key]? = some gone)
    (extra : order.extra gone = true) : order.Toward before (before.erase key) := by
  intro place
  rw [Std.ExtTreeMap.getElem?_erase]
  by_cases same : key = place
  · subst same
    simpa [present] using Turn.dropped extra
  · simpa [same] using Turn.kept

theorem insert {key : Key} {object written : δ} (absent : before[key]? = none)
    (wanted : order.wanted = some (key, object)) (stamp : Store.StampOf object written) :
    order.Toward before (before.insert key written) := by
  intro place
  rw [Std.ExtTreeMap.getElem?_insert]
  by_cases same : key = place
  · subst same
    simpa [absent] using Turn.made wanted stamp
  · simpa [same] using Turn.kept

theorem held (sound : order.Sound) (keyed : Keyed before) (toward : order.Toward before after)
    {key : Key} {object held : δ} (wanted : order.wanted = some (key, object))
    (present : before[key]? = some held) : after[key]? = some held := by
  have turn := toward key
  rw [present] at turn
  generalize after[key]? = later at turn
  cases turn with
  | kept => rfl
  | dropped extra => exact absurd (keyed key held present) (sound.apart wanted extra)

theorem obstacle?_eq (sound : order.Sound) (keyed : Keyed before)
    (toward : order.Toward before after) : order.obstacle? after = order.obstacle? before := by
  unfold obstacle?
  cases wanted : order.wanted with
  | none => rfl
  | some entry =>
      obtain ⟨key, object⟩ := entry
      cases present : before[key]? with
      | some held => simp only [toward.held sound keyed wanted present, present]
      | none =>
          have turn := toward key
          rw [present] at turn
          generalize outcome : after[key]? = later at turn
          cases turn with
          | kept => simp only [outcome, present]
          | made asked stamp =>
              have controls := sound.controlled asked stamp
              simp only [outcome, present, controls, if_true]

end Toward

/-- What a run that nothing disturbs leaves of what was under a key, if it gets to the kind. -/
structure Ends (order : Order δ) (reaches : Prop) (key : Key) (before after : Option δ) : Prop where
  turn : order.Turn key before after
  stays (missed : ¬reaches) : after = before
  clean (reached : reaches) {object : δ} (present : after = some object) :
    order.extra object = false
  there (reached : reaches) {object : δ} (wanted : order.wanted = some (key, object)) :
    ∃ held, after = some held

theorem Ends.twins [LawfulResource δ] {reaches : Prop} {key : Key} {before first second : Option δ}
    (one : order.Ends reaches key before first) (other : order.Ends reaches key before second) :
    first = second ∨ before = none ∧ ∃ left right,
      first = some left ∧ second = some right ∧ Store.Alike left right := by
  by_cases reached : reaches
  · cases one.turn with
    | kept =>
        cases other.turn with
        | kept => exact .inl rfl
        | dropped extra => simp [one.clean reached rfl] at extra
        | made wanted stamp =>
            obtain ⟨held, present⟩ := one.there reached wanted
            contradiction
    | dropped extra =>
        cases other.turn with
        | kept => simp [other.clean reached rfl] at extra
        | dropped _ => exact .inl rfl
    | made wanted stamp =>
        cases other.turn with
        | kept =>
            obtain ⟨held, present⟩ := other.there reached wanted
            contradiction
        | made again later =>
            rw [wanted] at again
            cases again
            exact .inr ⟨rfl, _, _, rfl, rfl, stamp.alike later⟩
  · exact .inl ((one.stays reached).trans (other.stays reached).symm)

theorem Toward.ends {before after : Std.ExtTreeMap Key δ} {reaches : Prop}
    (toward : order.Toward before after) (stays : ¬reaches → after = before)
    (tidy : reaches → order.Tidy after) (key : Key) :
    order.Ends reaches key before[key]? after[key]? where
  turn := toward key
  stays missed := by rw [stays missed]
  clean reached := (tidy reached).clean
  there reached := (tidy reached).there

theorem Toward.twins [LawfulResource δ] {before first second : Std.ExtTreeMap Key δ}
    (one : order.Toward before first) (tidy : order.Tidy first)
    (other : order.Toward before second) (clean : order.Tidy second) :
    Store.Twins before first second :=
  fun key => (one.ends (fun missed => absurd trivial missed) (fun _ => tidy) key).twins
    (other.ends (fun missed => absurd trivial missed) (fun _ => clean) key)

end Order

structure CanOwn {α : Type} [Resource α] (primary : α) : Prop where
  named : ∃ key, Resource.key primary = .ok key
  identified : ∃ uid, (Resource.metadata primary).uid = some uid

theorem CanOwn.owner {α : Type} [Resource α] {primary : α} (able : CanOwn primary) :
    ∃ owner, OwnerReference.toController? primary = some owner := by
  obtain ⟨⟨key, own⟩, uid, identified⟩ := able
  obtain ⟨named, _, _⟩ := Key.name_ne_of_ofParts own
  simp only [OwnerReference.toController?, named, identified]
  exact ⟨_, rfl⟩

/-- A primary as it may be found later: as it was, or with another status. -/
def Renewed {α σ : Type} [Primary α σ] (primary later : α) : Prop :=
  later = primary ∨ ∃ status, Store.StampOf (Primary.setStatus primary status) later

theorem Renewed.metadata_eq {α σ : Type} [Primary α σ] [LawfulPrimary α] {primary later : α}
    (renewed : Renewed primary later) (able : CanOwn primary) :
    ∃ version, Resource.metadata later =
      { Resource.metadata primary with resourceVersion := version } := by
  rcases renewed with rfl | ⟨status, fresh, version, rfl⟩
  · exact ⟨_, rfl⟩
  · obtain ⟨uid, identified⟩ := able.identified
    refine ⟨some (toString version), ?_⟩
    rw [Resource.metadata_withMetadata, LawfulPrimary.metadata_setStatus]
    simp [Store.stamped, identified]

theorem Renewed.canOwn {α σ : Type} [Primary α σ] [LawfulPrimary α] {primary later : α}
    (renewed : Renewed primary later) (able : CanOwn later)
    (same : (Resource.metadata primary).uid = (Resource.metadata later).uid) : CanOwn primary where
  named := by
    obtain ⟨key, own⟩ := able.named
    refine ⟨key, ?_⟩
    rcases renewed with rfl | ⟨status, stamp⟩
    · exact own
    · rw [stamp.key_eq, Resource.key, LawfulPrimary.metadata_setStatus] at own
      exact own
  identified := by
    rw [same]
    exact able.identified

namespace Template

variable {α σ δ : Type} [Primary α σ] [Resource δ] {template : Template α σ δ} {primary : α}

def wanted (template : Template α σ δ) (primary : α) : Option (Key × δ) :=
  match template.desired primary with
  | .ok (some object) => (Resource.key object).toOption.map fun key => (key, object)
  | _ => none

def order (template : Template α σ δ) (primary : α) : Order δ where
  wanted := template.wanted primary
  controls object := (Resource.metadata object).isControlledBy primary
  extra object :=
    (Resource.metadata object).isControlledBy primary &&
      Access.isStale primary (Access.nameOf ((template.wanted primary).map (·.2))) object
  taken key := Access.conflict δ key primary

theorem wanted_eq_some {key : Key} {object : δ}
    (wanted : template.wanted primary = some (key, object)) :
    template.desired primary = .ok (some object) ∧ Resource.key object = .ok key := by
  unfold Template.wanted at wanted
  split at wanted
  · next desired asked =>
      obtain ⟨place, own, same⟩ := Option.map_eq_some_iff.mp wanted
      cases same
      refine ⟨asked, ?_⟩
      cases found : Resource.key object with
      | ok found => simpa [found, Except.toOption] using own
      | error fault => simp [found, Except.toOption] at own
  · contradiction

theorem Lawful.desired_eq (lawful : template.Lawful) (able : CanOwn primary) :
    template.desired primary = .ok ((template.wanted primary).map (·.2)) := by
  obtain ⟨key, own⟩ := able.named
  obtain ⟨owner, controls⟩ := able.owner
  cases rendered : template.render primary with
  | none => simp only [Template.wanted, desired, rendered, Option.map_none]
  | some object =>
      obtain ⟨name, nonempty, named⟩ := lawful.named primary key own object rendered
      have found : ∃ place, Resource.key (adopted primary owner object) = .ok place := by
        simp [Resource.key, adopted, Metadata.key, Key.ofParts, named, nonempty]
      obtain ⟨place, found⟩ := found
      simp only [Template.wanted, desired, rendered, controls, found, Except.toOption,
        Option.map_some]

theorem order_sound : (template.order primary).Sound where
  own wanted := (wanted_eq_some wanted).2
  apart {key object gone} wanted extra own := by
    have named : template.wanted primary = some (key, object) := wanted
    have stale := (Bool.and_eq_true_iff.mp extra).2
    simp only [named, Option.map_some, Access.isStale, Bool.and_eq_true, decide_eq_true_eq] at stale
    have one := (Key.name_ne_of_ofParts own).1
    have other := (Key.name_ne_of_ofParts (wanted_eq_some named).2).1
    exact stale.1 (one.trans other.symm)
  controlled {key object written} wanted stamp := by
    obtain ⟨owner, rendered, controls, rfl⟩ := Access.adopted_of_desired (wanted_eq_some wanted).1
    exact stamp.isControlledBy_eq.trans (isControlledBy_adopted controls rendered)

theorem Lawful.order_eq [LawfulPrimary α] (lawful : template.Lawful) (able : CanOwn primary)
    {later : α} (renewed : Renewed primary later) :
    template.order later = template.order primary := by
  obtain ⟨version, metadata⟩ := renewed.metadata_eq able
  have renders : template.render later = template.render primary := by
    rcases renewed with rfl | ⟨status, fresh, last, rfl⟩
    · rfl
    · rw [lawful.render_stamped, lawful.render_setStatus]
  have desired : template.desired later = template.desired primary := by
    simp only [Template.desired, renders, OwnerReference.toController?, adopted, metadata]
  have wanted : template.wanted later = template.wanted primary := by
    simp only [Template.wanted, desired]
  simp only [order, wanted, Metadata.isControlledBy, Access.isStale, Access.conflict, metadata]

end Template

end ReconcileLoop
