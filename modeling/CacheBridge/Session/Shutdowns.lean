import CacheBridge.EventLoop

/-!
Sessions with one shutdown: begin it, complete it, and wait for it in the foreground or as tasks.
-/

namespace CacheBridge.ShutdownSession

inductive Step where
  | beginClose
  | complete
  | waitClosed (timeout bound : Nat)
  | closed (bound : Nat)
  | spawnWait (task : String) (timeout : Nat)
  | compare (a b : Phase)
  | sleep (span : Nat)
  | peek (task : String)
  | join (task : String) (bound : Nat)

inductive Outcome where
  | nothing
  | truth (b : Bool)
  | order (o : Ordering)
  | hung
  /-- The step does not fit the session. -/
  | refused
  | joined (b : Bool) (took : Nat)

/-- What a step has led to, and the phase after it, before the tasks go on. -/
structure Report where
  outcome : Outcome
  took : Nat
  phase : Phase

structure World where
  now : Nat
  phase : Phase

def machine : Machine where
  World := World
  Task := ClosedWait
  Result := Bool
  now w := w.now
  setNow t w := { w with now := t }
  ready w wait := wait.ready w.phase w.now
  alarm _ := ClosedWait.alarm
  run w wait := (w, wait.look w.phase w.now)

abbrev Session := EventLoop machine

namespace Session

def fresh : Session := { world := ⟨0, .active⟩ }

def phase (s : Session) : Phase := s.world.phase

def withPhase (s : Session) (p : Phase) : Session := { s with world := { s.world with phase := p } }

/-- Waits for the foreground; `tell` says what the answer to a wait is shown as. -/
def await (s : Session) (bound : Nat) (tell : Bool → Outcome) (f : EventLoop.Foreground machine) :
    Session × Outcome :=
  match EventLoop.await (Time.ring s.now bound) f s with
  | (s, none) => (s, .hung)
  | (s, some (.result b)) => (s, tell b)
  | (s, some (.joined f)) => (s, .joined f.result f.took)

/-- What a step does, up to its outcome. -/
def perform (s : Session) : Step → Session × Outcome
  | .beginClose =>
    let (begun, phase) := s.phase.beginClose
    (s.withPhase phase, .truth begun)
  | .complete => (s.withPhase s.phase.complete, .nothing)
  | .waitClosed timeout bound =>
    await s bound .truth (.call (.till (Time.ring s.now timeout)))
  | .closed bound => await s bound (fun _ => .nothing) (.call .endless)
  | .spawnWait task timeout =>
    (s.spawnAs task (.till (Time.ring s.now timeout) : ClosedWait), .nothing)
  | .compare a b => (s, .order (Ord.compare a b))
  | .sleep span => (EventLoop.sleep span s, .nothing)
  | .peek task =>
    match s.names.get? task with
    | none => (s, .refused)
    | some number => (s, .truth (s.finished? number).isSome)
  | .join task bound =>
    match s.names.get? task with
    | none => (s, .refused)
    | some number =>
      await { s with names := s.names.remove task } bound .truth (.join number)

/-- A step and its report. A step that could not be read is refused. -/
def step (s : Session) (t : Option Step) : Session × Report :=
  let started := s.now
  let (s, outcome) := t.elim (s, .refused) (perform s)
  (s.settle, ⟨outcome, s.now - started, phase s⟩)

/-- Runs the steps, one report for each. -/
def run (s : Session) : List (Option Step) → List Report
  | [] => []
  | t :: ts => let (s, report) := step s t; report :: run s ts

end Session

end CacheBridge.ShutdownSession
