import Alerting.Proofs.Bus.Delivery

/-!
# The accounts of a bus

Every event that a bus has accepted is delivered, in the hands of the worker or still waiting, and
never do more of them wait than there is room for. An offer is turned down for want of room alone,
until the bus is stopped: then only publishers that have looked before can still put an event on it.
-/

namespace Alerting

namespace Bus

variable {Handler : Type} {bus : Bus Handler}

theorem capacity_offer (bus : Bus Handler) (event : Event) :
    (bus.offer event).2.capacity = bus.capacity := by
  obtain ⟨queue, dropped, same⟩ := bus.offer_frame event
  rw [same]

theorem size_offer_le (bus : Bus Handler) (event : Event) (bound : bus.queue.size ≤ bus.capacity) :
    (bus.offer event).2.queue.size ≤ bus.capacity := by
  unfold offer
  split
  · exact bound
  · split
    · rename_i room
      rw [← Queue.length_toList, Queue.toList_push, List.length_append, Queue.length_toList]
      exact room
    · exact bound

theorem dropped_offer (bus : Bus Handler) (event : Event) :
    (bus.offer event).2.dropped =
      bus.dropped + if (bus.offer event).1 = .dropped then 1 else 0 := by
  unfold offer
  split
  · rfl
  · split <;> rfl

theorem offer_eq_dropped_iff {event : Event} (opened : ¬bus.closed)
    (bound : bus.queue.size ≤ bus.capacity) :
    (bus.offer event).1 = .dropped ↔ bus.queue.size = bus.capacity := by
  unfold offer
  rw [if_neg opened]
  split
  · simp only [reduceCtorEq, false_iff]
    omega
  · simp only [true_iff]
    omega

theorem offer_of_dropped {event : Event} (dropped : (bus.offer event).1 = .dropped) :
    (bus.offer event).2 = { bus with dropped := bus.dropped + 1 } := by
  unfold offer at dropped ⊢
  split at dropped
  · cases dropped
  · rename_i opened
    rw [if_neg opened]
    split at dropped
    · cases dropped
    · rename_i full
      rw [if_neg full]

theorem publish_of_not_stopped (working : ¬bus.stopped) (event : Event) (now : Instant) :
    bus.publish event now = bus.offer (event.stamp now) := by
  rw [publish, if_neg working]

theorem publish_of_stopped (stopped : bus.stopped) (event : Event) (now : Instant) :
    bus.publish event now = (.stopped, bus) := by
  rw [publish, if_pos stopped]

theorem stop_of_stopped (stopped : bus.stopped) : bus.stop = bus := by
  rw [stop, ← stopped]

end Bus

namespace Traffic

variable {Handler : Type} {traffic next : Traffic Handler} {capacity : Nat}

theorem bus_send {index : Nat} {posting : Posting} :
    (traffic.send index posting).bus = (traffic.bus.offer posting.sent).2 := rfl

/-! ## What was published and what became of it -/

def outcomes (traffic : Traffic Handler) (publication : Publication) : Nat :=
  traffic.postings.countP fun posting => posting.outcome = some publication

structure Counted (traffic : Traffic Handler) : Prop where
  accepted : traffic.accepted.length = traffic.outcomes .enqueued
  dropped : traffic.bus.dropped = traffic.outcomes .dropped

theorem outcomes_check {event : Event} {now : Instant} {publication : Publication}
    (other : publication ≠ .stopped) :
    (traffic.check event now).outcomes publication = traffic.outcomes publication := by
  unfold outcomes check
  rw [List.countP_append, List.countP_singleton]
  split <;> simp [Ne.symm other]

theorem outcomes_send {index : Nat} {posting : Posting} {publication : Publication}
    (present : traffic.postings[index]? = some posting) (underway : posting.outcome = none) :
    (traffic.send index posting).outcomes publication =
      traffic.outcomes publication +
        if (traffic.bus.offer posting.sent).1 = publication then 1 else 0 := by
  obtain ⟨bound, same⟩ := List.getElem?_eq_some_iff.mp present
  unfold outcomes send
  rw [List.countP_set bound, same]
  simp [underway]

theorem Counted.send (counted : traffic.Counted) {index : Nat} {posting : Posting}
    (present : traffic.postings[index]? = some posting) (underway : posting.outcome = none) :
    (traffic.send index posting).Counted := by
  constructor
  · rw [accepted_send, outcomes_send present underway, List.length_append, counted.accepted]
    split <;> rfl
  · rw [outcomes_send present underway, ← counted.dropped]
    exact traffic.bus.dropped_offer posting.sent

theorem Step.counted (step : Step traffic next) (counted : traffic.Counted) : next.Counted := by
  cases step with
  | check event now held =>
      constructor
      · rw [outcomes_check (by simp)]
        exact counted.accepted
      · rw [outcomes_check (by simp)]
        exact counted.dropped
  | send present underway => exact counted.send present underway
  | take idle first =>
      obtain ⟨_, rfl⟩ := Bus.take?_eq_some first
      exact ⟨counted.accepted, counted.dropped⟩
  | subscribe | stop | release | notice | deliver | invoke | settle | complete | leave =>
      exact ⟨counted.accepted, counted.dropped⟩

/-! ## Room -/

structure Fits (traffic : Traffic Handler) (capacity : Nat) : Prop where
  room : traffic.bus.capacity = max capacity 1
  size : traffic.bus.queue.size ≤ traffic.bus.capacity
  closed : traffic.bus.closed → traffic.bus.stopped

theorem Step.fits (step : Step traffic next) (fits : traffic.Fits capacity) :
    next.Fits capacity := by
  obtain ⟨room, size, closed⟩ := fits
  cases step with
  | send present underway =>
      rename_i index posting
      obtain ⟨queue, dropped, same⟩ := traffic.bus.offer_frame posting.sent
      constructor
      · rw [bus_send, Bus.capacity_offer]
        exact room
      · rw [bus_send, Bus.capacity_offer]
        exact traffic.bus.size_offer_le posting.sent size
      · rw [bus_send, same]
        exact closed
  | take idle first =>
      obtain ⟨_, rfl⟩ := Bus.take?_eq_some first
      refine ⟨room, ?_, closed⟩
      change traffic.bus.queue.tail.size ≤ traffic.bus.capacity
      rw [Queue.size_tail]
      omega
  | notice idle =>
      refine ⟨room, size, fun shut => ?_⟩
      rcases Bool.or_eq_true_iff.mp shut with already | stopped
      · exact closed already
      · exact stopped
  | stop held => exact ⟨room, size, fun _ => rfl⟩
  | check | subscribe | release | deliver | invoke | settle | complete | leave =>
      exact ⟨room, size, closed⟩

/-! ## Complete deliveries -/

def completed (traffic : Traffic Handler) : List Round :=
  if traffic.bus.delivery.isSome then traffic.rounds.dropLast else traffic.rounds

def inHand (traffic : Traffic Handler) : List Event :=
  traffic.taken.toList ++ (traffic.bus.delivery.map Delivery.event).toList

def Ongoing (traffic : Traffic Handler) : Prop :=
  ∀ delivery, traffic.bus.delivery = some delivery → ∃ earlier audience,
    traffic.rounds = earlier ++ [⟨delivery.event, audience⟩] ∧
      delivery.pending.length ≤ audience

theorem Step.ongoing (step : Step traffic next) (ongoing : traffic.Ongoing) : next.Ongoing := by
  cases step with
  | send present underway =>
      rename_i index posting
      obtain ⟨queue, dropped, same⟩ := traffic.bus.offer_frame posting.sent
      unfold Ongoing
      rw [bus_send, same]
      exact ongoing
  | take idle first =>
      obtain ⟨_, rfl⟩ := Bus.take?_eq_some first
      exact ongoing
  | deliver taken =>
      rintro delivery ⟨⟩
      exact ⟨_, _, rfl, Nat.le_refl _⟩
  | settle ending engaged =>
      intro delivery current
      obtain ⟨previous, hprevious, rfl⟩ := Option.map_eq_some_iff.mp current
      obtain ⟨earlier, audience, rounds, bound⟩ := ongoing previous hprevious
      refine ⟨earlier, audience, rounds, ?_⟩
      rw [List.length_drop]
      omega
  | complete through =>
      intro delivery current
      cases (current : none = some delivery)
  | check | subscribe | stop | release | notice | invoke | leave => exact ongoing

theorem Accounted.length (accounted : traffic.Accounted) :
    traffic.accepted.length =
      traffic.rounds.length + traffic.taken.toList.length + traffic.bus.queue.size := by
  have lengths := congrArg List.length accounted.carried
  simp only [Traffic.carried, List.length_map, List.length_append, Queue.length_toList] at lengths
  exact lengths.symm

theorem Ongoing.length (ongoing : traffic.Ongoing) :
    traffic.rounds.length =
      traffic.completed.length + (traffic.bus.delivery.map Delivery.event).toList.length := by
  unfold completed
  cases current : traffic.bus.delivery with
  | none => rfl
  | some delivery =>
      obtain ⟨earlier, audience, rounds, _⟩ := ongoing delivery current
      simp [rounds]

theorem Scheduled.length_inHand (scheduled : traffic.Scheduled) : traffic.inHand.length ≤ 1 := by
  unfold inHand
  cases taken : traffic.taken with
  | none => cases traffic.bus.delivery <;> simp
  | some event => simp [scheduled.alone event taken]

/-- Whoever was to receive an event whose delivery is complete has received it and is through. -/
theorem Scheduled.completed_prefix (scheduled : traffic.Scheduled) (ongoing : traffic.Ongoing) :
    traffic.completed.flatMap Round.receptions <+:
      traffic.receptions.take traffic.endings.length := by
  have receptions := scheduled.receptions
  cases current : traffic.bus.delivery with
  | none =>
      have free : traffic.endings.length = traffic.receptions.length := by
        rcases scheduled.paired with free | ⟨_, _, _, _, other⟩
        · exact free
        · rw [current] at other
          cases other
      have none : traffic.awaited = [] := by
        rw [awaited, current]
      have all : traffic.completed = traffic.rounds := by
        simp [completed, current]
      rw [none, List.append_nil] at receptions
      rw [all, free, List.take_length]
      exact ⟨[], by rw [List.append_nil, receptions]⟩
  | some delivery =>
      obtain ⟨earlier, audience, rounds, bound⟩ := ongoing delivery current
      have done : traffic.completed = earlier := by
        simp [completed, current, rounds]
      -- What has ended in the current round is what is missing from its audience.
      have enough : (earlier.flatMap Round.receptions).length ≤ traffic.endings.length := by
        have lengths := congrArg List.length receptions
        have paired := scheduled.paired
        rw [rounds, awaited, current] at lengths
        simp only [engaged, decide_eq_true_eq, List.flatMap_append, List.flatMap_singleton,
          List.length_append, List.length_map, Round.receptions, List.length_range] at lengths
        rcases paired with free | ⟨busy, event, registration, rest, same⟩
        · rw [if_neg (by omega)] at lengths
          omega
        · rw [current] at same
          cases same
          rw [if_pos (by omega), List.length_drop] at lengths
          simp only [List.length_cons] at lengths bound
          omega
      have begun : earlier.flatMap Round.receptions <+: traffic.receptions ++ traffic.awaited := by
        rw [receptions, rounds, List.flatMap_append]
        exact List.prefix_append ..
      have most : traffic.endings.length ≤ traffic.receptions.length := by
        rcases scheduled.paired with free | ⟨busy, _⟩ <;> omega
      rw [done, List.prefix_take_iff]
      refine ⟨?_, enough⟩
      exact List.prefix_of_prefix_length_le begun (List.prefix_append ..) (by omega)

/-! ## After the stop -/

structure Sealed (before later : Traffic Handler) : Prop where
  stopped : later.bus.stopped
  grown : before.postings.length ≤ later.postings.length
  refused : ∀ (index : Nat) (posting : Posting), before.postings.length ≤ index →
    later.postings[index]? = some posting → posting.outcome = some .stopped
  underway : ∀ (index : Nat) (posting : Posting), later.postings[index]? = some posting →
    posting.outcome = none → before.postings[index]? = some posting

theorem sealed_of_stopped (stopped : traffic.bus.stopped) : Sealed traffic traffic := by
  refine ⟨stopped, Nat.le_refl _, fun index posting beyond present => ?_,
    fun _ _ present _ => present⟩
  rw [List.getElem?_eq_none beyond] at present
  cases present

variable {before : Traffic Handler}

theorem Sealed.check (closed : Sealed before traffic) (event : Event) (now : Instant) :
    Sealed before (traffic.check event now) := by
  have postings : (traffic.check event now).postings =
      traffic.postings ++ [⟨event, now, some .stopped⟩] := by
    simp [Traffic.check, closed.stopped]
  have new {index : Nat} {posting : Posting} (beyond : ¬index < traffic.postings.length)
      (present : (traffic.check event now).postings[index]? = some posting) :
      posting.outcome = some .stopped := by
    rw [postings, List.getElem?_append_right (by omega)] at present
    rw [List.mem_singleton.mp (List.mem_of_getElem? present)]
  have old {index : Nat} (bound : index < traffic.postings.length) :
      (traffic.check event now).postings[index]? = traffic.postings[index]? := by
    rw [postings, List.getElem?_append_left bound]
  refine ⟨closed.stopped, ?_, fun index posting beyond present => ?_,
    fun index posting present underway => ?_⟩
  · have := closed.grown
    rw [postings, List.length_append]
    omega
  · by_cases bound : index < traffic.postings.length
    · rw [old bound] at present
      exact closed.refused index posting beyond present
    · exact new bound present
  · by_cases bound : index < traffic.postings.length
    · rw [old bound] at present
      exact closed.underway index posting present underway
    · rw [new bound present] at underway
      cases underway

theorem Sealed.send (closed : Sealed before traffic) {index : Nat} {posting : Posting}
    (present : traffic.postings[index]? = some posting) (underway : posting.outcome = none) :
    Sealed before (traffic.send index posting) := by
  obtain ⟨queue, dropped, same⟩ := traffic.bus.offer_frame posting.sent
  refine ⟨?_, ?_, fun other later beyond found => ?_, fun other later found undecided => ?_⟩
  · rw [bus_send, same]
    exact closed.stopped
  · simpa [Traffic.send] using closed.grown
  · rw [getElem?_send present] at found
    split at found
    · rename_i here
      rw [closed.refused index posting (here ▸ beyond) present] at underway
      cases underway
    · exact closed.refused other later beyond found
  · rw [getElem?_send present] at found
    split at found
    · cases found
      cases undecided
    · exact closed.underway other later found undecided

theorem Step.sealed (step : Step traffic next) (closed : Sealed before traffic) :
    Sealed before next := by
  cases step with
  | check event now held => exact closed.check event now
  | send present underway => exact closed.send present underway
  | stop held => exact ⟨rfl, closed.grown, closed.refused, closed.underway⟩
  | take idle first =>
      obtain ⟨_, rfl⟩ := Bus.take?_eq_some first
      exact ⟨closed.stopped, closed.grown, closed.refused, closed.underway⟩
  | subscribe | release | notice | deliver | invoke | settle | complete | leave =>
      exact ⟨closed.stopped, closed.grown, closed.refused, closed.underway⟩

theorem Run.sealed (run : Run before traffic) (stopped : before.bus.stopped) :
    Sealed before traffic := by
  induction run with
  | refl => exact sealed_of_stopped stopped
  | tail _ step ih => exact step.sealed ih

theorem Step.grows (step : Step traffic next)
    (longer : traffic.bus.queue.size < next.bus.queue.size) :
    ∃ index posting, traffic.postings[index]? = some posting ∧ posting.outcome = none ∧
      next = traffic.send index posting := by
  cases step with
  | send present underway => exact ⟨_, _, present, underway, rfl⟩
  | take idle first =>
      obtain ⟨_, rfl⟩ := Bus.take?_eq_some first
      change traffic.bus.queue.size < traffic.bus.queue.tail.size at longer
      rw [Queue.size_tail] at longer
      omega
  | check | subscribe | stop | release | notice | deliver | invoke | settle | complete | leave =>
      exact absurd longer (Nat.lt_irrefl _)

/-- What a bus comes to after it was stopped. Whoever begins to publish is turned away without a
trace, and the queue grows only by publishers that had looked before. -/
structure Ceased (before later : Traffic Handler) : Prop where
  stopped : later.bus.stopped
  stop : later.bus.stop = later.bus
  publish : ∀ event now, later.bus.publish event now = (.stopped, later.bus)
  refused : ∀ (index : Nat) (posting : Posting), before.postings.length ≤ index →
    later.postings[index]? = some posting → posting.outcome = some .stopped
  grows : ∀ next, Step later next → later.bus.queue.size < next.bus.queue.size →
    ∃ index posting, before.postings[index]? = some posting ∧ posting.outcome = none ∧
      next = later.send index posting

theorem Sealed.ceased (closed : Sealed before traffic) : Ceased before traffic where
  stopped := closed.stopped
  stop := Bus.stop_of_stopped closed.stopped
  publish := Bus.publish_of_stopped closed.stopped
  refused := closed.refused
  grows next step longer := by
    obtain ⟨index, posting, present, underway, rfl⟩ := step.grows longer
    exact ⟨index, posting, closed.underway index posting present underway, underway, rfl⟩

theorem Run.ceased_of_stop (run : Run { before with bus := before.bus.stop } traffic) :
    Ceased before traffic := by
  obtain ⟨stopped, grown, refused, underway⟩ := run.sealed rfl
  exact Sealed.ceased ⟨stopped, grown, refused, underway⟩

/-! ## Whole runs -/

theorem Run.counted (run : Run (start capacity) traffic) : traffic.Counted := by
  induction run with
  | refl => exact ⟨rfl, rfl⟩
  | tail _ step ih => exact step.counted ih

theorem Run.fits (run : Run (start capacity) traffic) : traffic.Fits capacity := by
  induction run with
  | refl => exact ⟨rfl, Nat.zero_le _, nofun⟩
  | tail _ step ih => exact step.fits ih

theorem Run.ongoing (run : Run (start capacity) traffic) : traffic.Ongoing := by
  induction run with
  | refl =>
      intro delivery current
      cases (current : none = some delivery)
  | tail _ step ih => exact step.ongoing ih

/-- However the steps of publishers, subscribers and the worker are interleaved: no more events wait
than there is room for; what was accepted is delivered, in the hands of the worker or waits; every
drop is counted, and comes of a full queue alone until the worker has noticed the stop. A call to
stop the bus ends all that at once, and so does one that was made earlier. -/
theorem accounts_of_run (run : Run (start capacity) traffic) :
    traffic.bus.queue.size ≤ max 1 capacity ∧
      (traffic.accepted.length = traffic.outcomes .enqueued ∧
        traffic.accepted.length =
          traffic.completed.length + traffic.inHand.length + traffic.bus.queue.size ∧
        traffic.inHand.length ≤ 1 ∧
        traffic.completed.flatMap Round.receptions <+:
          traffic.receptions.take traffic.endings.length) ∧
      traffic.bus.dropped = traffic.outcomes .dropped ∧
      ((traffic.bus.closed → traffic.bus.stopped) ∧
        (¬traffic.bus.stopped → ∀ event now,
          traffic.bus.publish event now = traffic.bus.offer (event.stamp now)) ∧
        (¬traffic.bus.closed → ∀ event,
          ((traffic.bus.offer event).1 = .dropped ↔ traffic.bus.queue.size = max 1 capacity) ∧
          ((traffic.bus.offer event).1 = .dropped →
            (traffic.bus.offer event).2 =
              { traffic.bus with dropped := traffic.bus.dropped + 1 }))) ∧
      (∀ later, Run { traffic with bus := traffic.bus.stop } later → Ceased traffic later) ∧
      (traffic.bus.stopped → ∀ later, Run traffic later → Ceased traffic later) := by
  have accounted := run.accounted
  have scheduled := run.scheduled
  have ongoing := run.ongoing
  have counted := run.counted
  obtain ⟨room, size, closed⟩ := run.fits
  rw [Nat.max_comm] at room
  refine ⟨room ▸ size, ⟨counted.accepted, ?_, scheduled.length_inHand,
    scheduled.completed_prefix ongoing⟩, counted.dropped,
    ⟨closed, Bus.publish_of_not_stopped, fun opened event => ?_⟩,
    fun _ later => later.ceased_of_stop, fun stopped _ later => (later.sealed stopped).ceased⟩
  · rw [accounted.length, ongoing.length, inHand, List.length_append]
    omega
  · rw [← room]
    exact ⟨Bus.offer_eq_dropped_iff opened size, Bus.offer_of_dropped⟩

/-- A bus is stopped while one event is under delivery and another one was dropped. Then a publisher
that had looked before puts its event on the bus, and one that comes later does not. -/
theorem accounts_of_run_of_full_bus :
    ∃ before traffic : Traffic String, before.bus.stopped = false ∧
      before.accepted = [0] ∧ before.bus.dropped = 1 ∧
      before.bus.queue.size ≤ max 1 0 ∧
      Run { before with bus := before.bus.stop } traffic ∧ traffic.bus.closed = false ∧
      traffic.accepted = [0, 2] ∧
      traffic.accepted.length =
        traffic.completed.length + traffic.inHand.length + traffic.bus.queue.size ∧
      traffic.bus.dropped = traffic.outcomes .dropped ∧
      (traffic.bus.offer up).1 = .dropped ∧
      Ceased before traffic ∧ ∀ later, Run traffic later → Ceased traffic later := by
  have run : Run (start 0 : Traffic String) _ := .single (.subscribe _ "ops" rfl)
  have run := run.tail (.check _ up (.clamp 0) rfl)
  have run := run.tail (@Step.send _ _ 0 _ rfl rfl)
  have run := run.tail (.check _ down (.clamp 1) rfl)
  have run := run.tail (@Step.send _ _ 1 _ rfl rfl)
  have run := run.tail (.notice ⟨rfl, rfl, rfl⟩)
  have run := run.tail (.take ⟨rfl, rfl, rfl⟩ rfl)
  have run := run.tail (.check _ down (.clamp 2) rfl)
  have run := run.tail (.deliver rfl)
  have running := run.tail (.invoke rfl rfl)
  obtain ⟨room, -, -, -, ceased, -⟩ := accounts_of_run running
  have afterwards {later : Traffic String} (since : Run _ later) :=
    And.intro since (ceased later since)
  obtain ⟨since, ends⟩ := afterwards (.tail (.single (.check _ up (.clamp 3) rfl))
    (@Step.send _ _ 2 _ rfl rfl))
  obtain ⟨-, ⟨_, accepted, _⟩, dropped, ⟨_, _, offered⟩, -, stopped⟩ :=
    accounts_of_run ((running.tail (.stop _ rfl)).trans since)
  exact ⟨_, _, rfl, rfl, rfl, room, since, rfl, rfl, accepted, dropped,
    (offered (by decide) up).1.mpr rfl, ends, stopped rfl⟩

end Traffic

end Alerting
