import Alerting.Activity

/-!
# Schedules

A main activity runs beside tasks that repeat rounds of an activity for as long as a round asks for
another one. Only one of them runs at a time, and each runs until it has to wait, but one that
passes very many waits without a real stop lets the others go first. Tasks take their turns in the
order in which they became able to go on.

When the main activity has to stop, the tasks take turns until none of them can go on or very many
of them have had one. Then those that let others go first line up again, the latest one first, and
the main activity goes on if it can by now. If nothing can go on, time passes up to the next moment
at which something can; if that is the main activity, it comes first.
-/

namespace Alerting

structure Roster (State Task : Type) where
  tasks : State → List Task
  round : Task → Activity State Bool

/-- The number of waits that are over at once which an activity passes before it lets others go
first. -/
def World.fullStamina : Nat := 128

/-- The number of turns after which the main activity goes on if it can. -/
def World.turnsInARow : Nat := 61

structure World (State Task : Type) where
  roster : Roster State Task
  state : State
  rounds : List (Task × Activity State Bool) := []
  ended : List Task := []
  queue : List Task := []
  resting : List Task := []
  stamina : Nat := World.fullStamina
  turns : Nat := 0

namespace World

variable {State Task A : Type} [Timed State] [BEq Task]

def isDue (ready : State → Option Nat) (state : State) : Bool :=
  (ready state).any fun time => time ≤ Timed.time state

def current (world : World State Task) (task : Task) : Activity State Bool :=
  (world.rounds.lookup task).getD (world.roster.round task)

def isRoused (world : World State Task) (task : Task) : Bool :=
  !(world.ended.contains task || world.queue.contains task || world.resting.contains task) &&
    (world.rounds.lookup task).all fun rest => isDue rest.readyAt world.state

def rouse (world : World State Task) : World State Task :=
  { world with
    queue := world.queue ++ (world.roster.tasks world.state).filter world.isRoused }

def change (update : State → State) (world : World State Task) : World State Task :=
  rouse { world with state := update world.state }

def proceed (activity : Activity State Bool) (world : World State Task) :
    Activity State Bool × World State Task :=
  match activity with
  | .done result => (.done result, world)
  | .act update next => proceed (next world.state) (world.change update)
  | .wait ready next =>
      if isDue ready world.state && 0 < world.stamina then
        proceed next { world with stamina := world.stamina - 1 }
      else (.wait ready next, world)

/-- Lets the first task in line finish its round or go on until it has to stop. A task without
stamina rests at its next wait, whether that is over or not. -/
def turn (world : World State Task) (task : Task) : World State Task :=
  let (rest, world) := proceed (world.current task) world
  let others := world.rounds.filter fun entry => entry.1 != task
  let next :=
    { world with
      queue := world.queue.drop 1
      stamina := fullStamina
      turns := world.turns + 1 }
  match rest with
  | .done true => { world with rounds := others }
  | .done false => { next with rounds := others, ended := task :: world.ended }
  | rest =>
      { next with
        rounds := (task, rest) :: others
        resting := if world.stamina = 0 then task :: world.resting else world.resting }

def next? (world : World State Task) : Option Task :=
  if world.turns < turnsInARow then world.queue.head? else none

def regroup (world : World State Task) : World State Task :=
  { world with queue := world.queue ++ world.resting, resting := [], turns := 0 }

def wakingTimes (world : World State Task) : List Nat :=
  world.rounds.filterMap fun entry => entry.2.readyAt world.state

/-- Lets the tasks work until the time that `ready` gives has come and it is up to the main
activity. The first argument bounds the number of turns and of jumps in time. -/
def advance (ready : State → Option Nat) : Nat → World State Task → Option (World State Task)
  | 0, _ => none
  | fuel + 1, world =>
      match world.next? with
      | some task => advance ready fuel (world.turn task)
      | none =>
          let world := world.regroup
          if isDue ready world.state then some world
          else if !world.queue.isEmpty then advance ready fuel world
          else do
            let time ← ((ready world.state).toList ++ world.wakingTimes).min?
            let world := world.change (Timed.setTime time)
            if isDue ready world.state then some world else advance ready fuel world

def quiesce : Nat → World State Task → World State Task
  | 0, world => world
  | fuel + 1, world =>
      match world.next? with
      | some task => quiesce fuel (world.turn task)
      | none =>
          let world := world.regroup
          if world.queue.isEmpty then world else quiesce fuel world

def patience : Nat := 100000000

def refreshed (world : World State Task) : World State Task :=
  { world with stamina := fullStamina }

def perform (activity : Activity State A) (world : World State Task) :
    Option (A × World State Task) :=
  match activity with
  | .done result => some (result, world)
  | .act update next => perform (next world.state) (world.change update)
  | .wait ready next => do
      let world ←
        if isDue ready world.state && 0 < world.stamina then some world
        else world.refreshed.advance ready patience
      perform next { world with stamina := world.stamina - 1 }

def yield (world : World State Task) : World State Task := world.refreshed.quiesce patience

end World

end Alerting
