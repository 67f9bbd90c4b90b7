import CacheBridge.Phase
import CacheBridge.Table

/-!
The event loop: one foreground call at a time, and any number of tasks in the background, on a
clock that moves only when everything waits.

At an instant the foreground is looked at first. Then the tasks that are ready run in rounds; in a
round they run in the order in which they last ran, and a task that becomes ready during a round
runs in the next. When no task is ready the foreground is looked at again. When nothing is ready
at all the clock goes to the earliest alarm.

`patience` bounds the rounds of one instant, and every task adds as many again. It is there for
tasks that are ready for ever, which would otherwise hold the clock.
-/

namespace CacheBridge

/-- What the tasks of a loop are: unanswered calls on a shared world. -/
structure Machine where
  World : Type
  Task : Type u
  Result : Type
  now : World → Nat
  setNow : Nat → World → World
  ready : World → Task → Bool
  alarm : World → Task → Option Nat
  run : World → Task → World × Progress Task Result

namespace EventLoop

/-- A task in the background. -/
structure Running (m : Machine) where
  number : Nat
  task : m.Task
  born : Nat

/-- A task that is over: its result, and how long it took. -/
structure Finished (m : Machine) where
  result : m.Result
  took : Nat

end EventLoop

open EventLoop in
/-- The state of a loop. -/
structure EventLoop (m : Machine) where
  world : m.World
  /-- The tasks in the background, in the order in which they last ran. -/
  queue : List (Running m) := []
  finished : List (Nat × Finished m) := []
  /-- The tasks that can be asked for by name. -/
  names : Table Nat := {}
  next : Nat := 0

namespace EventLoop

variable {m : Machine}

/-- What the foreground waits for. -/
inductive Foreground (m : Machine) where
  /-- Nothing but the clock. -/
  | clock
  | call (task : m.Task)
  /-- The end of a task in the background. -/
  | join (number : Nat)

/-- What the foreground has heard. -/
inductive Heard (m : Machine) where
  | result (r : m.Result)
  | joined (f : Finished m)

/-- The rounds that an instant may take where there are no tasks. -/
def patience : Nat := 100000

def now (l : EventLoop m) : Nat := m.now l.world

/-- Puts a task into the background. It does not run before the next round. -/
def spawn (task : m.Task) (l : EventLoop m) : EventLoop m × Nat :=
  ({ l with queue := l.queue ++ [⟨l.next, task, l.now⟩], next := l.next + 1 }, l.next)

/-- Puts a task into the background under a name. -/
def spawnAs (name : String) (task : m.Task) (l : EventLoop m) : EventLoop m :=
  let (l, number) := l.spawn task
  { l with names := l.names.put name number }

def finished? (l : EventLoop m) (number : Nat) : Option (Finished m) := l.finished.lookup number

/-- Runs one task. If it still waits it goes to the end of the queue. -/
def runTask (l : EventLoop m) (r : Running m) : EventLoop m :=
  let others := l.queue.filter (·.number != r.number)
  match m.run l.world r.task with
  | (world, .waiting task) =>
    { l with world := world, queue := others ++ [{ r with task := task }] }
  | (world, .answered result) =>
    { l with
      world := world
      queue := others
      finished := (r.number, ⟨result, m.now world - r.born⟩) :: l.finished }

/-- The tasks that are ready now. -/
def readyTasks (l : EventLoop m) : List (Running m) :=
  l.queue.filter fun r => m.ready l.world r.task

/-- Runs every task that is ready at the beginning of the round. -/
def round (l : EventLoop m) : EventLoop m := l.readyTasks.foldl runTask l

/-- Runs rounds until no task is ready. -/
def settleWithin : Nat → EventLoop m → EventLoop m
  | 0, l => l
  | n + 1, l => if l.readyTasks.isEmpty then l else settleWithin n l.round

def settle (l : EventLoop m) : EventLoop m := settleWithin (patience * (l.queue.length + 1)) l

/-- Looks at the foreground once. -/
def attend (f : Foreground m) (l : EventLoop m) : EventLoop m × Progress (Foreground m) (Heard m) :=
  match f with
  | .clock => (l, .waiting f)
  | .join number =>
    match l.finished? number with
    | some done => (l, .answered (.joined done))
    | none => (l, .waiting f)
  | .call task =>
    match m.run l.world task with
    | (world, .waiting task) => ({ l with world := world }, .waiting (.call task))
    | (world, .answered result) => ({ l with world := world }, .answered (.result result))

/-- Whether looking at the foreground would get it anywhere. -/
def foregroundReady (l : EventLoop m) : Foreground m → Bool
  | .clock => false
  | .join number => (l.finished? number).isSome
  | .call task => m.ready l.world task

/-- Lets foreground and background go on within the present instant. -/
def quiesceWithin : Nat → Foreground m → EventLoop m →
    EventLoop m × Progress (Foreground m) (Heard m)
  | 0, f, l => (l, .waiting f)
  | n + 1, f, l =>
    if l.foregroundReady f then
      match attend f l with
      | (l, .answered h) => (l, .answered h)
      | (l, .waiting f) => quiesceWithin n f l
    else if l.readyTasks.isEmpty then (l, .waiting f)
    else quiesceWithin n f l.settle

/-- The alarms of the loop. -/
def alarms (f : Foreground m) (l : EventLoop m) : List Nat :=
  let foreground := match f with
    | .call task => (m.alarm l.world task).toList
    | _ => []
  foreground ++ l.queue.filterMap fun r => m.alarm l.world r.task

/-- The instant that the clock goes to when everything waits: the earliest alarm that is still to
come, but not beyond `limit`. -/
def nextInstant (limit : Nat) (f : Foreground m) (l : EventLoop m) : Nat :=
  ((l.alarms f).filter (l.now < ·)).foldl min limit

/-- Waits for the foreground up to `limit`, one instant after the other. At `limit` the foreground
is looked at once more and then given up. -/
def awaitWithin : Nat → Nat → Foreground m → EventLoop m → EventLoop m × Option (Heard m)
  | 0, _, _, l => (l, none)
  | n + 1, limit, f, l =>
    match quiesceWithin patience f l with
    | (l, .answered h) => (l, some h)
    | (l, .waiting f) =>
      let t := l.nextInstant limit f
      let l := { l with world := m.setNow t l.world }
      if limit ≤ t then
        match if l.foregroundReady f then attend f l else (l, .waiting f) with
        | (l, .answered h) => (l, some h)
        | (l, .waiting _) => (l, none)
      else awaitWithin n limit f l

/-- How many instants there are up to `limit`. -/
def instants (l : EventLoop m) (limit : Nat) : Nat := (limit - l.now) / Time.millisecond + 2

/-- Looks at the foreground, and waits for it up to `limit` if it has no answer yet. -/
def await (limit : Nat) (f : Foreground m) (l : EventLoop m) : EventLoop m × Option (Heard m) :=
  match attend f l with
  | (l, .answered h) => (l, some h)
  | (l, .waiting f) =>
    if limit ≤ l.now then (l, none) else awaitWithin (l.instants limit) limit f l

/-- Lets time pass for the background. -/
def sleep (span : Nat) (l : EventLoop m) : EventLoop m := (l.await (Time.ring l.now span) .clock).1

end EventLoop

end CacheBridge
