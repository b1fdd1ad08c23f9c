import ReconcileLoop.Proofs.Reconcile.Order

namespace ReconcileLoop

/-! # One kind, as it was ordered

With a cache that has caught up, to bring one kind in line leads toward what its primary ordered,
whatever calls fail on the way (`Access.sync_edits`). If it succeeds, the wanted dependent is there and
was reported (`Access.sync_reports`). Without failures everything is tidy afterwards, and only
somebody else's object in the place of the wanted one can be the reason to fail (`Access.sync_calm`);
and where everything is tidy already nothing is done (`Access.sync_idle`).
-/

variable {α σ δ : Type} [Primary α σ] [Resource δ]

namespace Order

variable {order : Order δ}

def Complies (order : Order δ) : Edit δ → Prop
  | .removed _ gone => order.extra gone = true
  | .created key made => ∃ object, order.wanted = some (key, object) ∧ Store.StampOf object made

theorem Complies.own (sound : order.Sound) {key : Key} {made : δ}
    (complies : order.Complies (.created key made)) : Resource.key made = .ok key := by
  obtain ⟨object, wanted, stamp⟩ := complies
  exact stamp.key_eq.trans (sound.own wanted)

theorem toward_of_edits (sound : order.Sound) {before after : Std.ExtTreeMap Key δ}
    {edits : List (Edit δ)} (run : Edits before edits after) (keyed : Keyed before)
    (complies : ∀ edit ∈ edits, order.Complies edit) : order.Toward before after := by
  induction run with
  | done => exact .refl order _
  | removed present _ ih =>
      obtain ⟨extra, later⟩ := List.forall_mem_cons.mp complies
      exact (Toward.erase present extra).trans sound keyed (ih (keyed.erase _) later)
  | created absent _ ih =>
      obtain ⟨here, later⟩ := List.forall_mem_cons.mp complies
      have own := Complies.own sound here
      obtain ⟨object, wanted, stamp⟩ := here
      exact (Toward.insert absent wanted stamp).trans sound keyed (ih (keyed.insert own) later)

theorem Toward.clean (sound : order.Sound) {before after : Std.ExtTreeMap Key δ}
    (toward : order.Toward before after)
    (clean : ∀ (key : Key) (object : δ), before[key]? = some object → order.extra object = false)
    {key : Key} {object : δ} (present : after[key]? = some object) : order.extra object = false := by
  have turn := toward key
  rw [present] at turn
  generalize at_before : before[key]? = start at turn
  cases turn with
  | kept => exact clean key object at_before
  | made wanted stamp =>
      by_contra extra
      exact sound.apart wanted (by simpa using extra) (stamp.key_eq.trans (sound.own wanted))

end Order

namespace ScriptedStore

theorem ensure_found {api after : ScriptedStore δ} {key : Key} {desired found : δ} {created : Bool}
    (ran : api.ensure key desired = (.ok (found, created), after))
    (own : Resource.key desired = .ok key) : after.store.objects[key]? = some found := by
  obtain ⟨answer, next, called, phase⟩ := ensure_phases ran
  have read {seen : Except StoreError (Option δ)} (looked : next.get key = (seen, after)) :
      after.store.objects = next.store.objects :=
    (get_edited looked).store.objects_eq
  rcases phase with ⟨made, seen, _, rfl, looked, same, shown⟩ |
    ⟨error, _, ⟨existing, looked, same⟩ | ⟨⟨_, impossible⟩, _⟩⟩
  · cases same
    rw [read looked]
    rcases shown with rfl | rfl
    · exact get_found looked
    · rcases create_edited called with
        ⟨place, object, done, named, _, edited⟩ | ⟨⟨error, failed⟩, _⟩
      · cases done
        obtain rfl : place = key := Except.ok.inj (named.symm.trans own)
        rw [edited.store.objects.eq_of_created]
        exact Std.ExtTreeMap.getElem?_insert_self
      · contradiction
  · cases same
    rw [read looked]
    exact get_found looked
  · contradiction

theorem ensure_calm {api after : ScriptedStore δ} {key : Key} {desired : δ}
    {result : Except ReconcileError (δ × Bool)}
    (ran : api.ensure key desired = (result, after)) (own : Resource.key desired = .ok key)
    (absent : api.store.objects[key]? = none) (calm : api.Calm) :
    ∃ found, result = .ok (found, true) := by
  obtain ⟨answer, next, called, phase⟩ := ensure_phases ran
  obtain ⟨made, rfl⟩ := create_calm called own absent calm
  rcases phase with ⟨_, _, found, _, _, same, _⟩ | ⟨_, impossible, _⟩
  · exact ⟨found, same⟩
  · contradiction

end ScriptedStore

namespace Access

variable {access after : Access δ} {template : Template α σ δ} {primary : α} {status : σ}
  {result : Except ReconcileError (Bool × σ)}

theorem mem_stale (inSync : access.InSync) (able : CanOwn primary) {keep : Option String}
    {object : δ} :
    object ∈ access.stale primary keep ↔
      (∃ key : Key, access.api.store.objects[key]? = some object) ∧
        (Resource.metadata object).isControlledBy primary = true ∧
          isStale primary keep object = true := by
  obtain ⟨uid, identified⟩ := able.identified
  have controls : (Resource.metadata object).isControlledBy primary = true ↔
      (Resource.metadata object).controllerUid? = some uid :=
    Metadata.isControlledBy_iff identified
  simp only [stale, identified, List.mem_filter, Snapshot.mem_ownedBy inSync.owners, controls,
    Index.ownerUid?, inSync.items, exists_and_right, and_assoc]

theorem mem_stale_iff_extra (inSync : access.InSync) (able : CanOwn primary) {object : δ} :
    object ∈ access.stale primary (nameOf ((template.wanted primary).map (·.2))) ↔
      (∃ key : Key, access.api.store.objects[key]? = some object) ∧
        (template.order primary).extra object = true := by
  rw [mem_stale inSync able, Template.order, Bool.and_eq_true]

theorem sync_phases (lawful : template.Lawful) (able : CanOwn primary)
    (ran : access.sync template primary status = (result, after)) :
    ∃ outcome api,
      access.api.deleteAll (access.stale primary (nameOf ((template.wanted primary).map (·.2)))) =
        (outcome, api) ∧
      ((∃ error, outcome = .error error ∧ result = .error error ∧ after = { access with api }) ∨
        (∃ deleted, outcome = .ok deleted ∧ template.wanted primary = none ∧
          result = .ok (deleted, template.clear status) ∧ after = { access with api }) ∨
        ∃ deleted key object, outcome = .ok deleted ∧
          template.wanted primary = some (key, object) ∧
          { access with api }.provide template primary status deleted object = (result, after)) := by
  unfold sync at ran
  simp only [lawful.desired_eq able] at ran
  split at ran
  · next error api deleted =>
      cases ran
      exact ⟨_, api, deleted, .inl ⟨error, rfl, rfl, rfl⟩⟩
  · next count api deleted =>
      refine ⟨_, api, deleted, .inr ?_⟩
      cases wanted : template.wanted primary with
      | none =>
          simp only [wanted, Option.map_none] at ran
          cases ran
          exact .inl ⟨count, rfl, rfl, rfl, rfl⟩
      | some entry =>
          simp only [wanted, Option.map_some] at ran
          exact .inr ⟨count, entry.1, entry.2, rfl, rfl, ran⟩

/-- What is made of the object in the place of the one that is wanted. -/
inductive Judged (template : Template α σ δ) (primary : α) (status : σ) (key : Key) (found : δ) :
    Except ReconcileError (Bool × σ) → Prop where
  | own (controls : (Resource.metadata found).isControlledBy primary = true) (changed : Bool) :
      Judged template primary status key found (.ok (changed, template.observe found status))
  | foreign (controls : (Resource.metadata found).isControlledBy primary = false) :
      Judged template primary status key found (.error (conflict δ key primary))

theorem Judged.failsFor {key : Key} {object found : δ} {items : Std.ExtTreeMap Key δ}
    (judged : Judged template primary status key found result)
    (wanted : template.wanted primary = some (key, object)) (present : items[key]? = some found) :
    FailsFor ((template.order primary).obstacle? items) result := by
  have here : (template.order primary).wanted = some (key, object) := wanted
  cases judged with
  | own controls changed =>
      have controls : (template.order primary).controls found = true := controls
      simp only [Order.obstacle?, here, present, controls, if_true]
      exact ⟨_, rfl⟩
  | foreign controls =>
      have controls : (template.order primary).controls found = false := controls
      simp only [Order.obstacle?, here, present, controls, Bool.false_eq_true, if_false]
      rfl

/-- To provide a dependent fails because a call does; or else the dependent is there, and what counts
is who controls it. -/
theorem provide_cases {key : Key} {object : δ} {mutated : Bool}
    (own : Resource.key object = .ok key)
    (kept : ∀ held, access.cache.get? key = some held → access.api.store.objects[key]? = some held)
    (ran : access.provide template primary status mutated object = (result, after)) :
    (∃ error, result = .error error ∧ access.cache.get? key = none ∧
      access.api.ensure key object = (.error error, after.api)) ∨
    ∃ found, after.api.store.objects[key]? = some found ∧
      Judged template primary status key found result := by
  unfold provide at ran
  simp only [own] at ran
  have judged {found : δ} {created : Bool} {api : ScriptedStore δ}
      (present : api.store.objects[key]? = some found)
      (ran : (if (Resource.metadata found).isControlledBy primary then
        (.ok (mutated || created, template.observe found status), { access with api })
        else (.error (conflict δ key primary), { access with api })) = (result, after)) :
      ∃ found, after.api.store.objects[key]? = some found ∧
        Judged template primary status key found result := by
    split at ran
    · next controls =>
        cases ran
        exact ⟨found, present, .own controls _⟩
    · next foreign =>
        cases ran
        exact ⟨found, present, .foreign (by simpa using foreign)⟩
  cases shown : access.cache.get? key with
  | some held =>
      simp only [actual, shown] at ran
      exact .inr (judged (kept held shown) ran)
  | none =>
      simp only [actual, shown] at ran
      cases looked : access.api.ensure key object with
      | mk answer api =>
          simp only [looked] at ran
          cases answer with
          | error error =>
              cases ran
              exact .inl ⟨error, rfl, rfl, rfl⟩
          | ok found =>
              exact .inr (judged (ScriptedStore.ensure_found looked own) ran)

section

variable {outcome : Except ReconcileError Bool} {api : ScriptedStore δ} {key : Key} {object : δ}
  (inSync : access.InSync) (able : CanOwn primary)
  (deleted : access.api.deleteAll
    (access.stale primary (nameOf ((template.wanted primary).map (·.2)))) = (outcome, api))

include inSync able deleted

theorem deleteAll_extra : ∃ edits, access.api.Edited edits api ∧ ∀ edit ∈ edits, ∃ key gone,
    edit = .removed key gone ∧ (template.order primary).extra gone = true := by
  obtain ⟨edits, edited, removes⟩ := ScriptedStore.deleteAll_edited deleted
  refine ⟨edits, edited, fun edit member => ?_⟩
  obtain ⟨shown, stale, key, gone, own, rfl⟩ := removes edit member
  obtain ⟨⟨place, there⟩, extra⟩ := (mem_stale_iff_extra inSync able).mp stale
  -- What is removed is the very object that the cache shows.
  have present : access.api.store.objects[key]? = some gone := by
    refine edited.store.objects.present_of_removed member fun object created => ?_
    obtain ⟨_, _, _, _, _, impossible⟩ := removes _ created
    contradiction
  obtain rfl : place = key := Except.ok.inj ((inSync.keyed place shown there).symm.trans own)
  obtain rfl : shown = gone := Option.some.inj (there.symm.trans present)
  exact ⟨place, shown, rfl, extra⟩

theorem deleteAll_absent (absent : access.api.store.objects[key]? = none) :
    api.store.objects[key]? = none := by
  obtain ⟨removed, edited, drops⟩ := deleteAll_extra inSync able deleted
  refine edited.store.objects.absent absent fun made created => ?_
  obtain ⟨_, _, impossible, _⟩ := drops _ created
  contradiction

theorem deleteAll_keyed : Keyed api.store.objects := by
  obtain ⟨removed, edited, drops⟩ := deleteAll_extra inSync able deleted
  refine edited.store.objects.keyed inSync.keyed fun place made created => ?_
  obtain ⟨_, _, impossible, _⟩ := drops _ created
  contradiction

theorem deleteAll_keeps (wanted : template.wanted primary = some (key, object)) :
    ∀ held, access.cache.get? key = some held → api.store.objects[key]? = some held := by
  intro held shown
  rw [inSync.get?_eq] at shown
  obtain ⟨removed, edited, drops⟩ := deleteAll_extra inSync able deleted
  rcases edited.store.objects.survives shown with stays | goes
  · exact stays
  · obtain ⟨_, _, same, extra⟩ := drops _ goes
    cases same
    exact absurd (inSync.keyed key held shown) (Template.order_sound.apart wanted extra)

omit able in
theorem deleteAll_calm (calm : access.api.Calm) : ∃ count, outcome = .ok count := by
  have keyed : Keyed access.cache.items := (congrArg Keyed inSync.items).mpr inSync.keyed
  exact ScriptedStore.deleteAll_reliable deleted calm.reliable (named_of_stale keyed)

theorem deleteAll_clean (silent : access.api.replies.value .delete = []) {count : Bool}
    (done : outcome = .ok count) : ∀ (key : Key) (object : δ),
      api.store.objects[key]? = some object → (template.order primary).extra object = false := by
  subst done
  intro key object present
  obtain ⟨removed, edited, drops⟩ := deleteAll_extra inSync able deleted
  have before : access.api.store.objects[key]? = some object := by
    refine edited.store.objects.present present fun made created => ?_
    obtain ⟨_, _, impossible, _⟩ := drops _ created
    contradiction
  by_contra extra
  have stale := (mem_stale_iff_extra inSync able).mpr ⟨⟨key, before⟩, by simpa using extra⟩
  rw [ScriptedStore.deleteAll_absent_of_ok deleted silent object stale key
    (inSync.keyed key object before)] at present
  contradiction

/-- On a calm store there is something in the place of the wanted object in the end, and it is judged
by its controller. -/
theorem provide_calm (calm : access.api.Calm) {mutated : Bool}
    (wanted : template.wanted primary = some (key, object))
    (ran : { access with api }.provide template primary status mutated object = (result, after)) :
    (∃ found, after.api.store.objects[key]? = some found) ∧
      FailsFor ((template.order primary).obstacle? after.api.store.objects) result := by
  have own := (Template.wanted_eq_some wanted).2
  have kept := deleteAll_keeps inSync able deleted wanted
  rcases provide_cases own kept ran with ⟨error, failed, unseen, refused⟩ | ⟨found, present, judged⟩
  · have unseen : access.cache.get? key = none := unseen
    rw [inSync.get?_eq] at unseen
    obtain ⟨removed, edited, _⟩ := deleteAll_extra inSync able deleted
    obtain ⟨found, made⟩ := ScriptedStore.ensure_calm refused own
      (deleteAll_absent inSync able deleted unseen) (edited.calm calm)
    contradiction
  · exact ⟨⟨found, present⟩, judged.failsFor wanted present⟩

end

theorem provide_complies {key : Key} {object : δ} {mutated : Bool}
    (wanted : template.wanted primary = some (key, object))
    (ran : access.provide template primary status mutated object = (result, after)) :
    after.cache = access.cache ∧ ∃ edits, access.api.Edited edits after.api ∧
      ∀ edit ∈ edits, (template.order primary).Complies edit := by
  obtain ⟨cache, edits, edited, creates⟩ := provide_edited ran
  refine ⟨cache, edits, edited, fun edit member => ?_⟩
  obtain ⟨place, made, rfl, own, stamp⟩ := creates edit member
  obtain rfl : key = place := Except.ok.inj ((Template.wanted_eq_some wanted).2.symm.trans own)
  exact ⟨object, wanted, stamp⟩

theorem provide_toward {key : Key} {object : δ} {mutated : Bool}
    (wanted : template.wanted primary = some (key, object)) (keyed : Keyed access.api.store.objects)
    (ran : access.provide template primary status mutated object = (result, after)) :
    (template.order primary).Toward access.api.store.objects after.api.store.objects := by
  obtain ⟨_, edits, edited, complies⟩ := provide_complies wanted ran
  exact Order.toward_of_edits Template.order_sound edited.store.objects keyed complies

/-- To bring a kind in line edits its store in the sense of what the primary ordered. -/
theorem sync_edits (inSync : access.InSync) (lawful : template.Lawful) (able : CanOwn primary)
    (ran : access.sync template primary status = (result, after)) :
    after.cache = access.cache ∧ ∃ edits, access.api.Edited edits after.api ∧
      ∀ edit ∈ edits, (template.order primary).Complies edit := by
  obtain ⟨outcome, api, deleted, phase⟩ := sync_phases lawful able ran
  obtain ⟨removed, first, drops⟩ := deleteAll_extra inSync able deleted
  have removes : ∀ edit ∈ removed, (template.order primary).Complies edit := by
    intro edit member
    obtain ⟨key, gone, rfl, extra⟩ := drops edit member
    exact extra
  rcases phase with
    ⟨_, _, _, rfl⟩ | ⟨_, _, _, _, rfl⟩ | ⟨_, key, object, _, wanted, provided⟩
  · exact ⟨rfl, removed, first, removes⟩
  · exact ⟨rfl, removed, first, removes⟩
  · obtain ⟨cache, made, second, creates⟩ := provide_complies wanted provided
    refine ⟨cache, removed ++ made, first.trans second, fun edit member => ?_⟩
    rcases List.mem_append.mp member with member | member
    · exact removes edit member
    · exact creates edit member

theorem sync_toward (inSync : access.InSync) (lawful : template.Lawful) (able : CanOwn primary)
    (ran : access.sync template primary status = (result, after)) :
    (template.order primary).Toward access.api.store.objects after.api.store.objects := by
  obtain ⟨_, edits, edited, complies⟩ := sync_edits inSync lawful able ran
  exact Order.toward_of_edits Template.order_sound edited.store.objects inSync.keyed complies

theorem sync_tells (inSync : access.InSync) (lawful : template.Lawful) (able : CanOwn primary)
    (ran : access.sync template primary status = (result, after)) :
    access.api.store.Tells after.api.store := by
  obtain ⟨_, edits, edited, complies⟩ := sync_edits inSync lawful able ran
  exact edited.store.tells inSync.keyed fun key made member =>
    (complies _ member).own Template.order_sound

/-- A kind that is in line has what is wanted, and the status repeats what that reports. -/
theorem sync_reports (inSync : access.InSync) (lawful : template.Lawful) (able : CanOwn primary)
    {changed : Bool} {observed : σ}
    (ran : access.sync template primary status = (.ok (changed, observed), after)) :
    (template.order primary).obstacle? access.api.store.objects = none ∧
      (∀ key object, template.wanted primary = some (key, object) →
        ∃ held, after.api.store.objects[key]? = some held) ∧
      observed = template.report ((template.order primary).found? after.api.store.objects) status := by
  have sound : (template.order primary).Sound := Template.order_sound
  have toward := sync_toward inSync lawful able ran
  rw [← toward.obstacle?_eq sound inSync.keyed]
  obtain ⟨outcome, api, deleted, phase⟩ := sync_phases lawful able ran
  rcases phase with
    ⟨_, _, failed, _⟩ | ⟨_, _, wanted, done, _⟩ | ⟨_, key, object, _, wanted, provided⟩
  · contradiction
  · cases done
    have nothing : (template.order primary).wanted = none := wanted
    refine ⟨by simp only [Order.obstacle?, nothing], fun key object asked => ?_, ?_⟩
    · rw [wanted] at asked
      contradiction
    · simp only [Order.found?, nothing, Option.bind_none, Template.report]
  · have here : (template.order primary).wanted = some (key, object) := wanted
    have kept := deleteAll_keeps inSync able deleted wanted
    obtain ⟨found, present, controls, observed_eq⟩ : ∃ found,
        after.api.store.objects[key]? = some found ∧
          (template.order primary).controls found = true ∧
            observed = template.observe found status := by
      rcases provide_cases (Template.wanted_eq_some wanted).2 kept provided with
        ⟨_, failed, _⟩ | ⟨found, present, judged⟩
      · contradiction
      · cases judged with
        | own controls _ => exact ⟨found, present, controls, rfl⟩
    refine ⟨?_, fun place other asked => ?_, ?_⟩
    · simp only [Order.obstacle?, here, present, controls, if_true]
    · rw [wanted] at asked
      cases asked
      exact ⟨found, present⟩
    · simp only [Order.found?, here, Option.bind_some, present, Template.report, observed_eq]

/-- A kind that is in line is tidy, if its store was asked for each delete. -/
theorem sync_tidy (inSync : access.InSync) (lawful : template.Lawful) (able : CanOwn primary)
    (silent : access.api.replies.value .delete = []) {changed : Bool} {observed : σ}
    (ran : access.sync template primary status = (.ok (changed, observed), after)) :
    (template.order primary).Tidy after.api.store.objects := by
  obtain ⟨_, there, _⟩ := sync_reports inSync lawful able ran
  obtain ⟨outcome, api, deleted, phase⟩ := sync_phases lawful able ran
  refine ⟨fun {key object} present => ?_, fun {key object} wanted => there key object wanted⟩
  rcases phase with ⟨_, _, failed, _⟩ | ⟨_, done, _, _, rfl⟩ | ⟨_, _, _, done, wanted, provided⟩
  · contradiction
  · exact deleteAll_clean inSync able deleted silent done key object present
  · have moved := provide_toward wanted (deleteAll_keyed inSync able deleted) provided
    exact moved.clean Template.order_sound (deleteAll_clean inSync able deleted silent done) present

/-- A calm store is left tidy, and nothing but what somebody else put there can be in the way. -/
theorem sync_calm (inSync : access.InSync) (lawful : template.Lawful) (able : CanOwn primary)
    (calm : access.api.Calm) (ran : access.sync template primary status = (result, after)) :
    (template.order primary).Tidy after.api.store.objects ∧
      FailsFor ((template.order primary).obstacle? access.api.store.objects) result := by
  have sound : (template.order primary).Sound := Template.order_sound
  have toward := sync_toward inSync lawful able ran
  rw [← toward.obstacle?_eq sound inSync.keyed]
  obtain ⟨outcome, api, deleted, phase⟩ := sync_phases lawful able ran
  obtain ⟨count, done⟩ := deleteAll_calm inSync deleted calm
  have clean := deleteAll_clean inSync able deleted (calm.silent .delete) done
  rcases phase with
    ⟨_, failed, _, _⟩ | ⟨_, _, wanted, finished, rfl⟩ | ⟨_, key, object, _, wanted, provided⟩
  · rw [done] at failed
    contradiction
  · have nothing : (template.order primary).wanted = none := wanted
    refine ⟨⟨fun {key object} present => clean key object present, fun {key object} asked => ?_⟩, ?_⟩
    · rw [nothing] at asked
      contradiction
    · rw [Order.obstacle?, nothing]
      exact ⟨_, finished⟩
  · have here : (template.order primary).wanted = some (key, object) := wanted
    obtain ⟨there, judged⟩ := provide_calm inSync able deleted calm wanted provided
    have moved := provide_toward wanted (deleteAll_keyed inSync able deleted) provided
    refine ⟨⟨fun {place other} present => moved.clean sound clean present,
      fun {place other} asked => ?_⟩, judged⟩
    rw [here] at asked
    cases asked
    exact there

theorem sync_idle (inSync : access.InSync) (lawful : template.Lawful) (able : CanOwn primary)
    (tidy : (template.order primary).Tidy access.api.store.objects)
    (free : (template.order primary).obstacle? access.api.store.objects = none) (status : σ) :
    access.sync template primary status =
      (.ok (false,
        template.report ((template.order primary).found? access.api.store.objects) status),
        access) := by
  have nothing : access.stale primary (nameOf ((template.wanted primary).map (·.2))) = [] := by
    refine List.eq_nil_iff_forall_not_mem.mpr fun object stale => ?_
    obtain ⟨⟨key, present⟩, extra⟩ := (mem_stale_iff_extra inSync able).mp stale
    rw [tidy.clean present] at extra
    contradiction
  cases ran : access.sync template primary status with
  | mk result after =>
      obtain ⟨outcome, api, deleted, phase⟩ := sync_phases lawful able ran
      rw [nothing] at deleted
      cases deleted
      rcases phase with
        ⟨_, failed, _, _⟩ | ⟨_, same, wanted, finished, rfl⟩ | ⟨_, key, object, same, wanted, provided⟩
      · contradiction
      · cases same
        have none_wanted : (template.order primary).wanted = none := wanted
        simp only [finished, Order.found?, none_wanted, Option.bind_none, Template.report]
      · cases same
        have here : (template.order primary).wanted = some (key, object) := wanted
        obtain ⟨held, present⟩ := tidy.there here
        have shown : access.cache.get? key = some held := by rw [inSync.get?_eq, present]
        have controls : (Resource.metadata held).isControlledBy primary = true := by
          by_contra foreign
          have other : (template.order primary).controls held = false :=
            Bool.eq_false_iff.mpr foreign
          simp [Order.obstacle?, here, present, other] at free
        simp only [provide, (Template.wanted_eq_some wanted).2, actual, shown, controls, if_true,
          Bool.or_self] at provided
        cases provided
        simp only [Order.found?, here, Option.bind_some, present, Template.report]

end Access

end ReconcileLoop
