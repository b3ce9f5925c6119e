import Alerting.Proofs.Bus.Traffic

/-!
# Exactly once and in order

Whatever the publishers, the subscribers and the worker do at the same time, every accepted event is
given once to each handler that was subscribed when its delivery began, in the order in which the
events were accepted and the handlers subscribed. Nothing that is not accepted is delivered, and
nothing that a handler does keeps others from their events.
-/

namespace Alerting

namespace Bus

variable {Handler : Type} {bus : Bus Handler}

theorem queue_offer (bus : Bus Handler) (event : Event) :
    (bus.offer event).2.queue.toList =
      bus.queue.toList ++ if (bus.offer event).1 = .enqueued then [event] else [] := by
  unfold offer
  split
  · simp
  · split <;> simp

theorem offer_frame (bus : Bus Handler) (event : Event) :
    ∃ queue dropped, (bus.offer event).2 = { bus with queue, dropped } := by
  unfold offer
  split
  · exact ⟨_, _, rfl⟩
  · split
    · exact ⟨_, _, rfl⟩
    · exact ⟨_, _, rfl⟩

theorem offer_failures (bus : Bus Handler) (event : Event) (failures : Nat) :
    { bus with failures }.offer event =
      ((bus.offer event).1, { (bus.offer event).2 with failures }) := by
  unfold offer
  by_cases closed : bus.closed
  · simp [closed]
  · by_cases room : bus.queue.size < bus.capacity
    · simp [closed, room]
    · simp [closed, room]

theorem offer_of_closed {event : Event} (closed : bus.closed) :
    bus.offer event = (.stopped, bus) := by
  rw [offer, if_pos closed]

theorem take?_eq_some {event : Event} {rest : Bus Handler} (h : bus.take? = some (event, rest)) :
    bus.queue.toList = event :: rest.queue.toList ∧ rest = { bus with queue := bus.queue.tail } := by
  obtain ⟨first, head, same⟩ := Option.map_eq_some_iff.mp h
  cases same
  refine ⟨?_, rfl⟩
  rw [← Queue.head?_toList] at head
  obtain ⟨tail, parts⟩ := List.head?_eq_some_iff.mp head
  rw [Queue.toList_tail, parts, List.tail_cons]

end Bus

namespace Traffic

variable {Handler : Type} {traffic next : Traffic Handler}

/-! ## Accepted events -/

def carried (traffic : Traffic Handler) : List Event :=
  traffic.rounds.map Round.event ++ traffic.taken.toList ++ traffic.bus.queue.toList

structure Accounted (traffic : Traffic Handler) : Prop where
  carried : traffic.carried.map some = traffic.accepted.map traffic.sent?
  accepted : ∀ index, index ∈ traffic.accepted ↔
    ∃ posting, traffic.postings[index]? = some posting ∧ posting.outcome = some .enqueued
  once : traffic.accepted.Nodup

theorem Accounted.check (accounted : traffic.Accounted) (event : Event) (now : Instant) :
    (traffic.check event now).Accounted := by
  have earlier (index : Nat) (mem : index ∈ traffic.accepted) :
      (traffic.check event now).postings[index]? = traffic.postings[index]? := by
    obtain ⟨posting, present, _⟩ := (accounted.accepted index).mp mem
    exact List.getElem?_append_left (List.getElem?_eq_some_iff.mp present).1
  refine ⟨?_, fun index => ?_, accounted.once⟩
  · refine accounted.carried.trans (List.map_congr_left fun index mem => ?_)
    rw [sent?, sent?, earlier index mem]
  · constructor
    · intro mem
      rw [earlier index mem]
      exact (accounted.accepted index).mp mem
    · rintro ⟨posting, present, outcome⟩
      refine (accounted.accepted index).mpr ⟨posting, ?_, outcome⟩
      simp only [Traffic.check, List.getElem?_append] at present
      split at present
      · exact present
      · have new := List.mem_of_getElem? present
        rw [List.mem_singleton.mp new] at outcome
        split at outcome <;> cases outcome

section

variable {index : Nat} {posting : Posting}

theorem getElem?_send (present : traffic.postings[index]? = some posting) (other : Nat) :
    (traffic.send index posting).postings[other]? =
      if index = other then
        some { posting with outcome := some (traffic.bus.offer posting.sent).1 }
      else traffic.postings[other]? := by
  have bound := (List.getElem?_eq_some_iff.mp present).1
  simp [send, List.getElem?_set, bound]

theorem sent?_send (present : traffic.postings[index]? = some posting) :
    (traffic.send index posting).sent? = traffic.sent? := by
  funext other
  rw [sent?, sent?, getElem?_send present]
  split
  · rename_i same
    rw [← same, present]
    rfl
  · rfl

theorem carried_send : (traffic.send index posting).carried =
    traffic.carried ++
      if (traffic.bus.offer posting.sent).1 = .enqueued then [posting.sent] else [] := by
  rw [carried, carried, List.append_assoc _ traffic.bus.queue.toList, ← Bus.queue_offer]
  rfl

theorem accepted_send : (traffic.send index posting).accepted =
    traffic.accepted ++
      if (traffic.bus.offer posting.sent).1 = .enqueued then [index] else [] := by
  change (if (traffic.bus.offer posting.sent).1 = .enqueued then _ else _) = _
  split <;> simp

theorem Accounted.send (accounted : traffic.Accounted)
    (present : traffic.postings[index]? = some posting) (underway : posting.outcome = none) :
    (traffic.send index posting).Accounted := by
  have unsent : index ∉ traffic.accepted := by
    intro mem
    obtain ⟨other, hother, outcome⟩ := (accounted.accepted index).mp mem
    rw [present] at hother
    cases hother
    rw [underway] at outcome
    cases outcome
  constructor
  · rw [carried_send, accepted_send, sent?_send present, List.map_append, List.map_append,
      accounted.carried]
    split
    · simp [sent?, present]
    · rfl
  · intro other
    rw [accepted_send, List.mem_append, accounted.accepted, getElem?_send present]
    by_cases same : index = other
    · subst same
      simp [present, underway]
    · simp [same, Ne.symm same]
  · rw [accepted_send]
    split
    · rw [List.nodup_append]
      refine ⟨accounted.once, List.pairwise_singleton .., fun other mem last hlast same => ?_⟩
      rw [List.mem_singleton.mp hlast] at same
      exact unsent (same ▸ mem)
    · simpa using accounted.once

end

theorem Step.accounted (step : Step traffic next) (accounted : traffic.Accounted) :
    next.Accounted := by
  cases step with
  | check event now held => exact accounted.check event now
  | send present underway => exact accounted.send present underway
  | subscribe handler held => exact ⟨accounted.carried, accounted.accepted, accounted.once⟩
  | stop held => exact ⟨accounted.carried, accounted.accepted, accounted.once⟩
  | release ended => exact ⟨accounted.carried, accounted.accepted, accounted.once⟩
  | notice idle => exact ⟨accounted.carried, accounted.accepted, accounted.once⟩
  | take idle first =>
      refine ⟨?_, accounted.accepted, accounted.once⟩
      refine Eq.trans ?_ accounted.carried
      simp [carried, idle.taken, (Bus.take?_eq_some first).1]
  | deliver taken =>
      refine ⟨?_, accounted.accepted, accounted.once⟩
      refine Eq.trans ?_ accounted.carried
      simp [carried, Traffic.deliver, taken, Bus.deliver]
  | invoke current free => exact ⟨accounted.carried, accounted.accepted, accounted.once⟩
  | settle ending engaged => exact ⟨accounted.carried, accounted.accepted, accounted.once⟩
  | complete through => exact ⟨accounted.carried, accounted.accepted, accounted.once⟩
  | leave idle empty ended => exact ⟨accounted.carried, accounted.accepted, accounted.once⟩

/-! ## Receptions -/

def engaged (traffic : Traffic Handler) : Bool :=
  traffic.endings.length < traffic.receptions.length

def awaited (traffic : Traffic Handler) : List Reception :=
  match traffic.bus.delivery with
  | none => []
  | some delivery =>
      (if traffic.engaged then delivery.pending.drop 1 else delivery.pending).map
        fun registration => ⟨registration.number, delivery.event⟩

structure Scheduled (traffic : Traffic Handler) : Prop where
  numbered : traffic.bus.handlers.map Registration.number =
    List.range traffic.bus.handlers.length
  receptions : traffic.receptions ++ traffic.awaited =
    traffic.rounds.flatMap Round.receptions
  paired : traffic.endings.length = traffic.receptions.length ∨
    traffic.endings.length + 1 = traffic.receptions.length ∧
      ∃ event registration rest,
        traffic.bus.delivery = some ⟨event, registration :: rest⟩
  alone : ∀ event, traffic.taken = some event → traffic.bus.delivery = none

theorem Scheduled.send (scheduled : traffic.Scheduled) (index : Nat) (posting : Posting) :
    (traffic.send index posting).Scheduled := by
  obtain ⟨queue, dropped, same⟩ := traffic.bus.offer_frame posting.sent
  have bus : (traffic.send index posting).bus = { traffic.bus with queue, dropped } := same
  have awaited : (traffic.send index posting).awaited = traffic.awaited := by
    rw [Traffic.awaited, bus]
    rfl
  constructor
  · rw [bus]
    exact scheduled.numbered
  · rw [awaited]
    exact scheduled.receptions
  · rw [bus]
    exact scheduled.paired
  · rw [bus]
    exact scheduled.alone

theorem Scheduled.subscribe (scheduled : traffic.Scheduled) (handler : Handler) :
    (traffic.subscribe handler).Scheduled := by
  refine ⟨?_, scheduled.receptions, scheduled.paired, scheduled.alone⟩
  simp [Traffic.subscribe, Bus.subscribe, scheduled.numbered, List.range_succ]

theorem Scheduled.deliver (scheduled : traffic.Scheduled) {event : Event}
    (taken : traffic.taken = some event) : (traffic.deliver event).Scheduled := by
  have between := scheduled.alone event taken
  have free : traffic.endings.length = traffic.receptions.length := by
    rcases scheduled.paired with free | ⟨_, _, _, _, current⟩
    · exact free
    · rw [between] at current
      cases current
  have before : traffic.awaited = [] := by
    rw [awaited, between]
  have resting : (traffic.deliver event).engaged = false := by
    simp [engaged, Traffic.deliver, free]
  have after : (traffic.deliver event).awaited =
      Round.receptions ⟨event, traffic.bus.handlers.length⟩ := by
    rw [Round.receptions, ← scheduled.numbered, List.map_map]
    simp only [awaited, resting]
    rfl
  have receptions := scheduled.receptions
  rw [before, List.append_nil] at receptions
  refine ⟨scheduled.numbered, ?_, .inl free, fun _ still => ?_⟩
  · rw [after]
    simp [Traffic.deliver, receptions]
  · cases (still : none = some _)

theorem Scheduled.invoke (scheduled : traffic.Scheduled) {event : Event}
    {registration : Registration Handler} {rest : List (Registration Handler)}
    (current : traffic.bus.delivery = some ⟨event, registration :: rest⟩)
    (free : traffic.endings.length = traffic.receptions.length) :
    (traffic.invoke ⟨registration.number, event⟩).Scheduled := by
  refine ⟨scheduled.numbered, ?_, ?_, scheduled.alone⟩
  · have receptions := scheduled.receptions
    simpa [awaited, engaged, Traffic.invoke, current, free] using receptions
  · right
    refine ⟨?_, event, registration, rest, current⟩
    simp [Traffic.invoke, free]

theorem Scheduled.settle (scheduled : traffic.Scheduled) (ending : Ending)
    (engaged : traffic.endings.length < traffic.receptions.length) :
    (traffic.settle ending).Scheduled := by
  rcases scheduled.paired with free | ⟨busy, event, registration, rest, current⟩
  · omega
  · have receptions := scheduled.receptions
    refine ⟨scheduled.numbered, ?_, ?_, ?_⟩
    · simpa [awaited, Traffic.engaged, Traffic.settle, Bus.settle, current, ← busy] using receptions
    · left
      simpa [Traffic.settle] using busy
    · intro event taken
      have := scheduled.alone event taken
      rw [current] at this
      cases this

theorem Scheduled.complete (scheduled : traffic.Scheduled) {event : Event}
    (through : traffic.bus.delivery = some ⟨event, []⟩) :
    Scheduled { traffic with bus := traffic.bus.complete } := by
  have receptions := scheduled.receptions
  have none : traffic.awaited = [] := by
    simp [awaited, through]
  refine ⟨scheduled.numbered, ?_, ?_, fun _ _ => rfl⟩
  · rw [none] at receptions
    exact receptions
  · rcases scheduled.paired with free | ⟨_, _, _, _, current⟩
    · exact .inl free
    · rw [through] at current
      cases current

theorem Step.scheduled (step : Step traffic next) (scheduled : traffic.Scheduled) :
    next.Scheduled := by
  have same := scheduled
  obtain ⟨numbered, receptions, paired, alone⟩ := same
  cases step with
  | check event now held => exact ⟨numbered, receptions, paired, alone⟩
  | send present underway => exact scheduled.send _ _
  | subscribe handler held => exact scheduled.subscribe handler
  | stop held => exact ⟨numbered, receptions, paired, alone⟩
  | release ended => exact ⟨numbered, receptions, paired, alone⟩
  | notice idle => exact ⟨numbered, receptions, paired, alone⟩
  | take idle first =>
      obtain ⟨_, rfl⟩ := Bus.take?_eq_some first
      exact ⟨numbered, receptions, paired, fun _ _ => idle.delivery⟩
  | deliver taken => exact scheduled.deliver taken
  | invoke current free => exact scheduled.invoke current free
  | settle ending engaged => exact scheduled.settle ending engaged
  | complete through => exact scheduled.complete through
  | leave idle empty ended => exact ⟨numbered, receptions, paired, alone⟩

/-! ## Failures -/

def failuresAmong (endings : List Ending) : Nat := endings.countP fun ending => ending ≠ .returned

theorem failuresAmong_append (endings : List Ending) (ending : Ending) :
    failuresAmong (endings ++ [ending]) =
      if ending = .returned then failuresAmong endings else failuresAmong endings + 1 := by
  cases ending <;> simp [failuresAmong]

theorem Step.failures (step : Step traffic next)
    (counted : traffic.bus.failures = failuresAmong traffic.endings) :
    next.bus.failures = failuresAmong next.endings := by
  cases step with
  | send present underway =>
      rename_i index posting
      obtain ⟨queue, dropped, same⟩ := traffic.bus.offer_frame posting.sent
      change (traffic.bus.offer posting.sent).2.failures = _
      rw [same]
      exact counted
  | take idle first =>
      obtain ⟨_, rfl⟩ := Bus.take?_eq_some first
      exact counted
  | settle ending engaged =>
      have settled := failuresAmong_append traffic.endings ending
      rw [← counted] at settled
      simpa [Traffic.settle, Bus.settle] using settled.symm
  | check | subscribe | stop | release | notice | deliver | invoke | complete | leave =>
      exact counted

/-! ## The worker's leave -/

/-- Once the worker has left, everything is delivered and nothing more can be accepted. -/
structure Settled (traffic : Traffic Handler) : Prop where
  released : traffic.released → ∀ posting ∈ traffic.postings, posting.outcome ≠ none
  closed : traffic.bus.finished → traffic.bus.closed ∨ traffic.released
  taken : traffic.bus.finished → traffic.taken = none
  delivery : traffic.bus.finished → traffic.bus.delivery = none
  queue : traffic.bus.finished → traffic.bus.queue.toList = []

theorem Settled.of_not_finished
    (released : traffic.released → ∀ posting ∈ traffic.postings, posting.outcome ≠ none)
    (working : ¬traffic.bus.finished) : traffic.Settled :=
  ⟨released, fun finished => absurd finished working, fun finished => absurd finished working,
    fun finished => absurd finished working, fun finished => absurd finished working⟩

theorem Idle.not_finished (idle : traffic.Idle) : ¬traffic.bus.finished := by
  simp [idle.present]

theorem Settled.send (settled : traffic.Settled) {index : Nat} {posting : Posting}
    (present : traffic.postings[index]? = some posting) (underway : posting.outcome = none) :
    (traffic.send index posting).Settled := by
  have held : ¬traffic.released := by
    intro released
    exact settled.released released posting (List.mem_of_getElem? present) underway
  obtain ⟨queue, dropped, same⟩ := traffic.bus.offer_frame posting.sent
  have bus : (traffic.send index posting).bus = { traffic.bus with queue, dropped } := same
  refine ⟨fun released => absurd released held, ?_, ?_, ?_, ?_⟩
  · rw [bus]
    exact settled.closed
  · rw [bus]
    exact settled.taken
  · rw [bus]
    exact settled.delivery
  · intro finished
    change (traffic.bus.offer posting.sent).2.queue.toList = []
    rw [bus] at finished
    have closed := (settled.closed finished).resolve_right held
    rw [Bus.offer_of_closed closed]
    exact settled.queue finished

theorem Step.settled (step : Step traffic next) (settled : traffic.Settled) : next.Settled := by
  have same := settled
  obtain ⟨released, closed, taken, delivery, queue⟩ := same
  cases step with
  | check event now held =>
      refine ⟨fun ended => ?_, closed, taken, delivery, queue⟩
      rw [show traffic.released = true from ended] at held
      cases held
  | send present underway => exact settled.send present underway
  | release ended => exact ⟨fun _ => ended, fun _ => .inr rfl, taken, delivery, queue⟩
  | notice idle => exact .of_not_finished released idle.not_finished
  | take idle first =>
      obtain ⟨_, rfl⟩ := Bus.take?_eq_some first
      exact .of_not_finished released idle.not_finished
  | deliver begun =>
      refine .of_not_finished released fun finished => ?_
      rw [taken finished] at begun
      cases begun
  | settle ending engaged =>
      refine ⟨released, closed, taken, fun finished => ?_, queue⟩
      change traffic.bus.delivery.map _ = none
      rw [delivery finished]
      rfl
  | complete through => exact ⟨released, closed, taken, fun _ => rfl, queue⟩
  | leave idle empty ended =>
      refine ⟨released, fun _ => ended, fun _ => idle.taken, fun _ => idle.delivery, fun _ => ?_⟩
      rw [← Queue.isEmpty_toList] at empty
      exact List.isEmpty_iff.mp empty
  | subscribe | stop | invoke => exact ⟨released, closed, taken, delivery, queue⟩

/-! ## Other endings -/

def withEndings (traffic : Traffic Handler) (endings : List Ending) : Traffic Handler :=
  { traffic with
    bus := { traffic.bus with failures := failuresAmong endings }
    endings }

theorem withEndings_send (index : Nat) (posting : Posting) (endings : List Ending) :
    (traffic.withEndings endings).send index posting =
      (traffic.send index posting).withEndings endings := by
  have offer := traffic.bus.offer_failures posting.sent (failuresAmong endings)
  unfold send
  rw [show (traffic.withEndings endings).bus.offer posting.sent = _ from offer]
  rfl

theorem withEndings_settle (ending other : Ending) (endings : List Ending) :
    (traffic.withEndings endings).settle other =
      (traffic.settle ending).withEndings (endings ++ [other]) := by
  simp [withEndings, settle, Bus.settle, failuresAmong_append]

theorem Step.withEndings (step : Step traffic next) {endings : List Ending}
    (length : endings.length = next.endings.length) :
    ∃ before, before.length = traffic.endings.length ∧
      Step (traffic.withEndings before) (next.withEndings endings) := by
  cases step with
  | check event now held => exact ⟨endings, length, .check _ event now held⟩
  | send present underway =>
      refine ⟨endings, length, ?_⟩
      rw [← withEndings_send]
      exact .send present underway
  | subscribe handler held => exact ⟨endings, length, .subscribe _ handler held⟩
  | stop held => exact ⟨endings, length, .stop _ held⟩
  | release ended => exact ⟨endings, length, .release _ ended⟩
  | notice idle => exact ⟨endings, length, .notice ⟨idle.taken, idle.delivery, idle.present⟩⟩
  | take idle first =>
      refine ⟨endings, length, .take ⟨idle.taken, idle.delivery, idle.present⟩ ?_⟩
      obtain ⟨_, head, same⟩ := Option.map_eq_some_iff.mp first
      cases same
      exact Option.map_eq_some_iff.mpr ⟨_, head, rfl⟩
  | deliver taken => exact ⟨endings, length, .deliver taken⟩
  | invoke current free => exact ⟨endings, length, .invoke current (length.trans free)⟩
  | settle ending engaged =>
      -- This is the one step in which a handler ends, in one way or in another.
      rcases List.eq_nil_or_concat endings with none | ⟨before, other, parts⟩
      · simp [none, Traffic.settle] at length
      · rw [List.concat_eq_append] at parts
        subst parts
        have same : before.length = traffic.endings.length := by
          simpa [Traffic.settle] using length
        refine ⟨before, same, ?_⟩
        rw [← withEndings_settle]
        exact .settle _ other (same ▸ engaged)
  | complete through => exact ⟨endings, length, .complete through⟩
  | leave idle empty ended =>
      exact ⟨endings, length, .leave ⟨idle.taken, idle.delivery, idle.present⟩ empty ended⟩

/-- Had the handlers ended otherwise, everything else could have gone the same way. -/
theorem Run.withEndings {capacity : Nat} (run : Run (start capacity) traffic)
    {endings : List Ending} (length : endings.length = traffic.endings.length) :
    Run (start capacity) (traffic.withEndings endings) := by
  induction run generalizing endings with
  | refl =>
      rw [List.length_eq_zero_iff.mp length]
      exact .refl
  | tail _ step ih =>
      obtain ⟨before, same, step⟩ := step.withEndings length
      exact (ih same).tail step

/-! ## What each handler receives -/

def due (traffic : Traffic Handler) (number : Nat) : List Event :=
  (traffic.awaited.filter fun reception => reception.registration = number).map Reception.event

section

variable {capacity : Nat}

theorem Run.accounted (run : Run (start capacity) traffic) : traffic.Accounted := by
  induction run with
  | refl => exact ⟨rfl, by simp [start], List.nodup_nil⟩
  | tail _ step ih => exact step.accounted ih

theorem Run.scheduled (run : Run (start capacity) traffic) : traffic.Scheduled := by
  induction run with
  | refl => exact ⟨rfl, rfl, .inl rfl, fun _ none => by cases none⟩
  | tail _ step ih => exact step.scheduled ih

theorem Run.failures (run : Run (start capacity) traffic) :
    traffic.bus.failures = failuresAmong traffic.endings := by
  induction run with
  | refl => rfl
  | tail _ step ih => exact step.failures ih

theorem Run.settled (run : Run (start capacity) traffic) : traffic.Settled := by
  induction run with
  | refl => exact .of_not_finished (by simp [start]) (by simp [start, Bus.start])
  | tail _ step ih => exact step.settled ih

theorem Settled.ended (settled : traffic.Settled) (scheduled : traffic.Scheduled)
    (finished : traffic.bus.finished) :
    traffic.carried = traffic.rounds.map Round.event ∧ traffic.awaited = [] ∧
      traffic.endings.length = traffic.receptions.length := by
  have between := settled.delivery finished
  refine ⟨?_, ?_, ?_⟩
  · simp [carried, settled.taken finished, settled.queue finished]
  · rw [awaited, between]
  · rcases scheduled.paired with free | ⟨_, _, _, _, current⟩
    · exact free
    · rw [between] at current
      cases current

end

def up : Event := .occurrence "host" "up"

def down : Event := .occurrence "host" "down"

end Traffic

end Alerting
