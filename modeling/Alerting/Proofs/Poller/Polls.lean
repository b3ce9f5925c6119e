import Alerting.Installation.Polling
import Alerting.Proofs.Burst
import Alerting.Proofs.Bus.Delivery

/-!
# What a poll publishes

A poll publishes an event for each reading, in the order of the readings, on the bus that its handle
is bound to. A bus that is running takes the first of them as far as there is room and counts the
others as dropped. The poll counts all of them, whatever becomes of them, but none without a bus.
-/

namespace Alerting

def reports (readings : List (String × Number)) : List Event :=
  readings.map fun reading => Event.reading ObjectType.system reading.1 reading.2

theorem parts_reports (readings : List (String × Number)) :
    ((reports readings).map fun event =>
        (event.objectType, event.trigger, event.properties.entries, event.timestamp)) =
      readings.map fun reading =>
        ("system", .metric reading.1, [("value", .number reading.2)], none) := by
  simp only [reports, List.map_map]
  rfl

theorem timestamp_of_mem_reports {readings : List (String × Number)} {event : Event}
    (mem : event ∈ reports readings) : event.timestamp = none := by
  obtain ⟨reading, -, rfl⟩ := List.mem_map.mp mem
  rfl

namespace Clock

def advance (clock : Clock) (looks : Nat) : Clock := { clock with looks := clock.looks + looks }

def stampAll (clock : Clock) : List Event → List Event
  | [] => []
  | event :: rest => event.stamp clock.look.1 :: clock.look.2.stampAll rest

theorem advance_look (clock : Clock) (looks : Nat) :
    clock.look.2.advance looks = clock.advance (looks + 1) := by
  simp only [advance, look, Clock.mk.injEq, true_and]
  omega

theorem length_stampAll (clock : Clock) (events : List Event) :
    (clock.stampAll events).length = events.length := by
  induction events generalizing clock with
  | nil => rfl
  | cons event rest ih => simp [stampAll, ih]

end Clock

namespace Bus

variable {Handler : Type} {bus : Bus Handler}

def offerAll (bus : Bus Handler) (events : List Event) : Bus Handler :=
  events.foldl (fun bus event => (bus.offer event).2) bus

def room (bus : Bus Handler) : Nat := bus.capacity - bus.queue.size

theorem offerAll_of_not_closed (opened : ¬bus.closed) (events : List Event) :
    ∃ queue : Queue Event, queue.toList = bus.queue.toList ++ events.take bus.room ∧
      bus.offerAll events =
        { bus with queue, dropped := bus.dropped + (events.length - bus.room) } := by
  induction events generalizing bus with
  | nil => exact ⟨bus.queue, by simp, by simp [offerAll]⟩
  | cons event rest ih =>
      have first : bus.offerAll (event :: rest) = (bus.offer event).2.offerAll rest := rfl
      rw [first, offer, if_neg opened]
      by_cases fits : bus.queue.size < bus.capacity
      · have size : (bus.queue.push event).size = bus.queue.size + 1 := by
          rw [← Queue.length_toList, Queue.toList_push, List.length_append, Queue.length_toList]
          rfl
        have less : bus.room = { bus with queue := bus.queue.push event }.room + 1 := by
          simp only [room, size]
          omega
        rw [if_pos fits]
        obtain ⟨queue, list, same⟩ := @ih { bus with queue := bus.queue.push event } opened
        refine ⟨queue, ?_, ?_⟩
        · rw [list, less, List.take_succ_cons, Queue.toList_push, List.append_assoc]
          rfl
        · rw [same, less, List.length_cons, Nat.add_sub_add_right]
      · have full : bus.room = 0 := by
          unfold room
          omega
        have still : { bus with dropped := bus.dropped + 1 }.room = 0 := full
        rw [if_neg fits]
        obtain ⟨queue, list, same⟩ := @ih { bus with dropped := bus.dropped + 1 } opened
        refine ⟨queue, ?_, ?_⟩
        · rw [list, full, still, List.take_zero, List.take_zero]
        · rw [same, full, still, List.length_cons, Nat.sub_zero, Nat.sub_zero, Nat.add_assoc,
            Nat.add_comm 1]

end Bus

namespace Installation

open Activity

variable {installation : Installation} {index : Nat} {bus : Bus Subscriber} {event : Event}
  {events : List Event}

/-! ## Publishing one event after another -/

def published (installation : Installation) (index : Nat) (events : List Event) : Installation :=
  events.foldl (fun installation event => ((publish index event).burst installation).2) installation

theorem exists_burst_publish (index : Nat) (event : Event) (installation : Installation) :
    ∃ publication clock buses,
      (publish index event).burst installation =
        (.done publication, { installation with clock, buses }) := by
  rw [publish, step]
  simp only [burst]
  cases installation.buses[index]? with
  | none => exact ⟨_, installation.clock, installation.buses, rfl⟩
  | some bus => exact ⟨_, _, _, rfl⟩

theorem published_cons : installation.published index (event :: events) =
    (installation.published index [event]).published index events := rfl

theorem exists_published (installation : Installation) (index : Nat) (events : List Event) :
    ∃ clock buses, installation.published index events = { installation with clock, buses } := by
  induction events generalizing installation with
  | nil => exact ⟨installation.clock, installation.buses, rfl⟩
  | cons event rest ih =>
      obtain ⟨_, clock, buses, published⟩ := exists_burst_publish index event installation
      have first : installation.published index [event] = { installation with clock, buses } :=
        congrArg Prod.snd published
      rw [published_cons, first]
      exact ih _

theorem published_pollers (installation : Installation) (pollers : List Poller) (index : Nat)
    (events : List Event) :
    { installation with pollers }.published index events =
      { installation.published index events with pollers } := by
  induction events generalizing installation with
  | nil => rfl
  | cons event rest ih =>
      have first : { installation with pollers }.published index [event] =
          { installation.published index [event] with pollers } := by
        change ((publish index event).burst _).2 =
          { ((publish index event).burst installation).2 with pollers }
        rw [publish, step]
        simp only [burst]
        cases installation.buses[index]? <;> rfl
      rw [published_cons, first, ih, ← published_cons]

theorem published_of_stopped (present : installation.buses[index]? = some bus)
    (stopped : bus.stopped) (events : List Event) :
    installation.published index events = installation := by
  induction events with
  | nil => rfl
  | cons event rest ih =>
      have first : installation.published index [event] = installation := by
        obtain ⟨bound, found⟩ := List.getElem?_eq_some_iff.mp present
        change ((publish index event).burst installation).2 = installation
        rw [publish, step]
        simp only [burst, present, Bus.publish, stopped, true_or, ↓reduceIte]
        rw [← found, List.set_getElem_self]
      rw [published_cons, first, ih]

theorem published_singleton (present : installation.buses[index]? = some bus)
    (running : ¬bus.stopped) (untimed : event.timestamp = none) :
    installation.published index [event] =
      { installation with
        clock := installation.clock.look.2
        buses := installation.buses.set index
          (bus.offer (event.stamp installation.clock.look.1)).2 } := by
  change ((publish index event).burst installation).2 = _
  rw [publish, step]
  simp only [burst, present, Bus.publish, running, untimed, Option.isSome_none, Bool.false_eq_true,
    or_self, ↓reduceIte]

theorem published_of_running (present : installation.buses[index]? = some bus)
    (running : ¬bus.stopped) (untimed : ∀ event ∈ events, event.timestamp = none) :
    installation.published index events =
      { installation with
        clock := installation.clock.advance events.length
        buses := installation.buses.set index
          (bus.offerAll (installation.clock.stampAll events)) } := by
  induction events generalizing installation bus with
  | nil =>
      obtain ⟨bound, found⟩ := List.getElem?_eq_some_iff.mp present
      have same : installation.buses.set index bus = installation.buses := by
        rw [← found, List.set_getElem_self]
      change installation = { installation with buses := installation.buses.set index bus }
      rw [same]
  | cons event rest ih =>
      obtain ⟨bound, _⟩ := List.getElem?_eq_some_iff.mp present
      obtain ⟨queue, dropped, offered⟩ :=
        bus.offer_frame (event.stamp installation.clock.look.1)
      have still : ¬(bus.offer (event.stamp installation.clock.look.1)).2.stopped := by
        rwa [offered]
      rw [published_cons, published_singleton present running (untimed event List.mem_cons_self),
        ih (List.getElem?_set_self bound) still fun other mem =>
          untimed other (List.mem_cons_of_mem _ mem)]
      simp only [Clock.advance_look, List.set_set, List.length_cons]
      rfl

/-! ## Polls -/

def reported (installation : Installation) (handle : Nat) (readings : List (String × Number)) :
    Installation :=
  match installation.handles[handle]?.join with
  | some bus => installation.published bus (reports readings)
  | none => installation

theorem time_reported (installation : Installation) (handle : Nat)
    (readings : List (String × Number)) :
    (installation.reported handle readings).time = installation.time := by
  unfold reported
  split
  · rename_i bus _
    obtain ⟨_, _, published⟩ := installation.exists_published bus (reports readings)
    rw [published]
  · rfl

theorem reported_pollers (installation : Installation) (pollers : List Poller) (handle : Nat)
    (readings : List (String × Number)) :
    { installation with pollers }.reported handle readings =
      { installation.reported handle readings with pollers } := by
  unfold reported
  split
  · rename_i bound
    rw [bound]
    exact published_pollers ..
  · rename_i unbound
    rw [unbound]

theorem burst_tryPublish_of_bound {handle : Nat} (bound : installation.handles[handle]?.join =
    some index) (event : Event) :
    (tryPublish handle event).burst installation =
      (.done true, installation.published index [event]) := by
  obtain ⟨publication, clock, buses, published⟩ := exists_burst_publish index event installation
  have told : installation.published index [event] = { installation with clock, buses } :=
    congrArg Prod.snd published
  rw [tryPublish, burst_bind_of_done (burst_get _), told]
  simp only [Option.join_eq_some_iff.mp bound]
  rw [burst_bind_of_done published]
  rfl

theorem burst_tryPublish_of_unbound {handle : Nat}
    (unbound : installation.handles[handle]?.join = none) (event : Event) :
    (tryPublish handle event).burst installation = (.done false, installation) := by
  rw [tryPublish, burst_bind_of_done (burst_get _)]
  rcases Option.join_eq_none_iff.mp unbound with missing | empty
  · simp only [missing]
    rfl
  · simp only [empty]
    rfl

theorem burst_poll (handle : Nat) (readings : List (String × Number))
    (installation : Installation) :
    (poll handle readings).burst installation =
      (.done (if installation.handles[handle]?.join.isSome then readings.length else 0),
        installation.reported handle readings) := by
  unfold reported
  cases bound : installation.handles[handle]?.join with
  | none =>
      induction readings with
      | nil => rfl
      | cons reading rest ih =>
          rw [poll, burst_bind_of_done (burst_tryPublish_of_unbound bound _),
            burst_bind_of_done ih]
          rfl
  | some index =>
      induction readings generalizing installation with
      | nil => rfl
      | cons reading rest ih =>
          obtain ⟨clock, buses, first⟩ := installation.exists_published index
            [Event.reading ObjectType.system reading.1 reading.2]
          have still : (installation.published index
              [Event.reading ObjectType.system reading.1 reading.2]).handles[handle]?.join =
                some index := by
            rwa [first]
          rw [poll, burst_bind_of_done (burst_tryPublish_of_bound bound _),
            burst_bind_of_done (ih _ still)]
          exact congrArg (fun count => (Activity.done count, _)) (Nat.add_comm 1 rest.length)

/-- What a poll through a handle does in an installation, and what it tells. -/
structure Publishes (installation : Installation) (handle : Nat)
    (readings : List (String × Number)) : Prop where
  answer : (poll handle readings).burst installation =
    (.done (if installation.handles[handle]?.join.isSome then readings.length else 0),
      installation.reported handle readings)
  unbound : installation.handles[handle]?.join = none →
    installation.reported handle readings = installation
  stopped : ∀ index bus, installation.handles[handle]?.join = some index →
    installation.buses[index]? = some bus → bus.stopped →
    installation.reported handle readings = installation
  /-- A bus that is running takes the first readings as far as there is room, each with the time
  that the clock shows next, and counts the others as dropped. -/
  running : ∀ index bus, installation.handles[handle]?.join = some index →
    installation.buses[index]? = some bus → ¬bus.stopped → ¬bus.closed →
    let events := installation.clock.stampAll (reports readings)
    ∃ queue : Queue Event, queue.toList = bus.queue.toList ++ events.take bus.room ∧
      installation.reported handle readings =
        { installation with
          clock := installation.clock.advance readings.length
          buses := installation.buses.set index
            { bus with queue, dropped := bus.dropped + (readings.length - bus.room) } }

theorem publishes (installation : Installation) (handle : Nat)
    (readings : List (String × Number)) : installation.Publishes handle readings where
  answer := burst_poll handle readings installation
  unbound unbound := by simp only [reported, unbound]
  stopped index bus bound present stopped := by
    simp only [reported, bound]
    exact published_of_stopped present stopped _
  running index bus bound present running opened := by
    intro events
    have length : events.length = readings.length := by
      rw [Clock.length_stampAll, reports, List.length_map]
    obtain ⟨queue, list, offered⟩ := Bus.offerAll_of_not_closed opened events
    refine ⟨queue, list, ?_⟩
    simp only [reported, bound]
    rw [published_of_running present running fun _ => timestamp_of_mem_reports, offered, length,
      reports, List.length_map]

end Installation

end Alerting
