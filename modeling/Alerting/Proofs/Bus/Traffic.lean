import Mathlib.Logic.Relation
import Alerting.Bus

/-!
# Traffic on a bus

Any number of publishers, each of which first looks whether the bus is stopped and then puts its
event on it, subscribers that come at any time, and the worker take their steps in any order. What
happens is kept in logs: what was published and what became of it, which events were accepted, which
deliveries began, and who received what.
-/

namespace Alerting

structure Registration (Handler : Type) where
  number : Nat
  handler : Handler
deriving DecidableEq, Repr

inductive Ending where
  | returned
  | failed
  | panicked
deriving DecidableEq, Repr

structure Posting where
  event : Event
  now : Instant
  outcome : Option Publication
deriving DecidableEq

structure Round where
  event : Event
  audience : Nat
deriving DecidableEq

structure Reception where
  registration : Nat
  event : Event
deriving DecidableEq

structure Traffic (Handler : Type) where
  bus : Bus (Registration Handler)
  postings : List Posting := []
  /-- The places of the postings that were accepted, in the order in which they were. -/
  accepted : List Nat := []
  taken : Option Event := none
  rounds : List Round := []
  receptions : List Reception := []
  endings : List Ending := []
  /-- Whether nobody has a hold of the bus any more. -/
  released : Bool := false

def Posting.sent (posting : Posting) : Event := posting.event.stamp posting.now

def Round.receptions (round : Round) : List Reception :=
  (List.range round.audience).map fun number => ⟨number, round.event⟩

namespace Traffic

variable {Handler : Type}

def start (capacity : Nat) : Traffic Handler := { bus := .start capacity }

def sent? (traffic : Traffic Handler) (index : Nat) : Option Event :=
  traffic.postings[index]?.map Posting.sent

structure Idle (traffic : Traffic Handler) : Prop where
  taken : traffic.taken = none
  delivery : traffic.bus.delivery = none
  present : traffic.bus.finished = false

/-! ## Steps -/

def check (traffic : Traffic Handler) (event : Event) (now : Instant) : Traffic Handler :=
  let outcome := if traffic.bus.stopped then some .stopped else none
  { traffic with postings := traffic.postings ++ [⟨event, now, outcome⟩] }

def send (traffic : Traffic Handler) (index : Nat) (posting : Posting) : Traffic Handler :=
  let (publication, bus) := traffic.bus.offer posting.sent
  { traffic with
    bus
    postings := traffic.postings.set index { posting with outcome := some publication }
    accepted :=
      if publication = .enqueued then traffic.accepted ++ [index] else traffic.accepted }

def subscribe (traffic : Traffic Handler) (handler : Handler) : Traffic Handler :=
  { traffic with bus := traffic.bus.subscribe ⟨traffic.bus.handlers.length, handler⟩ }

def deliver (traffic : Traffic Handler) (event : Event) : Traffic Handler :=
  { traffic with
    bus := traffic.bus.deliver event
    taken := none
    rounds := traffic.rounds ++ [⟨event, traffic.bus.handlers.length⟩] }

def invoke (traffic : Traffic Handler) (reception : Reception) : Traffic Handler :=
  { traffic with receptions := traffic.receptions ++ [reception] }

def settle (traffic : Traffic Handler) (ending : Ending) : Traffic Handler :=
  { traffic with
    bus := traffic.bus.settle (ending = .returned)
    endings := traffic.endings ++ [ending] }

inductive Step : Traffic Handler → Traffic Handler → Prop where
  | check (traffic : Traffic Handler) (event : Event) (now : Instant)
      (held : traffic.released = false) : Step traffic (traffic.check event now)
  | send {traffic : Traffic Handler} {index : Nat} {posting : Posting}
      (present : traffic.postings[index]? = some posting) (underway : posting.outcome = none) :
      Step traffic (traffic.send index posting)
  | subscribe (traffic : Traffic Handler) (handler : Handler) (held : traffic.released = false) :
      Step traffic (traffic.subscribe handler)
  | stop (traffic : Traffic Handler) (held : traffic.released = false) :
      Step traffic { traffic with bus := traffic.bus.stop }
  | release (traffic : Traffic Handler)
      (ended : ∀ posting ∈ traffic.postings, posting.outcome ≠ none) :
      Step traffic { traffic with released := true }
  | notice {traffic : Traffic Handler} (idle : traffic.Idle) :
      Step traffic { traffic with bus := traffic.bus.notice }
  | take {traffic : Traffic Handler} {event : Event} {bus : Bus (Registration Handler)}
      (idle : traffic.Idle) (first : traffic.bus.take? = some (event, bus)) :
      Step traffic { traffic with bus, taken := some event }
  | deliver {traffic : Traffic Handler} {event : Event} (taken : traffic.taken = some event) :
      Step traffic (traffic.deliver event)
  | invoke {traffic : Traffic Handler} {event : Event} {registration : Registration Handler}
      {rest : List (Registration Handler)}
      (current : traffic.bus.delivery = some ⟨event, registration :: rest⟩)
      (free : traffic.endings.length = traffic.receptions.length) :
      Step traffic (traffic.invoke ⟨registration.number, event⟩)
  | settle (traffic : Traffic Handler) (ending : Ending)
      (engaged : traffic.endings.length < traffic.receptions.length) :
      Step traffic (traffic.settle ending)
  | complete {traffic : Traffic Handler} {event : Event}
      (through : traffic.bus.delivery = some ⟨event, []⟩) :
      Step traffic { traffic with bus := traffic.bus.complete }
  | leave {traffic : Traffic Handler} (idle : traffic.Idle) (empty : traffic.bus.queue.isEmpty)
      (ended : traffic.bus.closed ∨ traffic.released) :
      Step traffic { traffic with bus := traffic.bus.leave }

abbrev Run : Traffic Handler → Traffic Handler → Prop := Relation.ReflTransGen Step

/-! ## Steps together -/

variable {traffic : Traffic Handler}

theorem run_publish (held : traffic.released = false) (event : Event) (now : Instant) :
    ∃ next, Run traffic next ∧ next.bus = (traffic.bus.publish event now).2 ∧
      next.postings =
        traffic.postings ++ [⟨event, now, some (traffic.bus.publish event now).1⟩] := by
  have first : Run traffic (traffic.check event now) := .single (.check traffic event now held)
  by_cases stopped : traffic.bus.stopped
  · refine ⟨_, first, ?_⟩
    simp [check, Bus.publish, stopped]
  · have postings : (traffic.check event now).postings =
        traffic.postings ++ [⟨event, now, none⟩] := by
      simp [check, stopped]
    have present : (traffic.check event now).postings[traffic.postings.length]? =
        some ⟨event, now, none⟩ := by
      rw [postings, List.getElem?_concat_length]
    refine ⟨_, first.tail (.send present rfl), ?_⟩
    simp [send, Bus.publish, stopped, check, Posting.sent]

theorem run_begin (idle : traffic.Idle)
    (ended : traffic.bus.queue.isEmpty → traffic.bus.stopped ∨ traffic.released) :
    ∃ next, Run traffic next ∧ next.bus = traffic.bus.begin := by
  have noticed : Run traffic { traffic with bus := traffic.bus.notice } := .single (.notice idle)
  have idle : Idle { traffic with bus := traffic.bus.notice } :=
    ⟨idle.taken, idle.delivery, idle.present⟩
  unfold Bus.begin
  cases first : traffic.bus.notice.take? with
  | some entry =>
      obtain ⟨event, rest⟩ := entry
      exact ⟨_, (noticed.tail (.take idle first)).tail (.deliver rfl), rfl⟩
  | none =>
      have empty : traffic.bus.queue.isEmpty := by
        have none := Option.map_eq_none_iff.mp first
        exact List.isEmpty_iff.mpr (List.head?_eq_none_iff.mp none)
      refine ⟨_, noticed.tail (.leave idle empty ?_), rfl⟩
      rcases ended empty with stopped | released
      · left
        simp [Bus.notice, stopped]
      · exact .inr released

end Traffic

end Alerting
