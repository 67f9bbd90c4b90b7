import CacheBridge.EventLoop
import CacheBridge.Scope

/-!
Sessions with scopes: named scopes that are made, shared, cancelled and let go, and waits for their
end in the foreground or as tasks. A task holds on to the scope that it waits for.
-/

namespace CacheBridge.ScopeSession

/-- How a scope is made. -/
inductive Maker where
  | background
  | withTimeout (span : Nat)
  | timeout (of : String) (span : Nat)
  | child (of : String)
  | clone (of : String)

inductive Step where
  | make (id : String) (m : Maker)
  | drop (of : String)
  | cancel (of : String)
  | isDone (of : String)
  | deadline (of : String)
  | done (of : String) (bound : Nat)
  | spawnDone (of task : String)
  | sleep (span : Nat)
  | peek (task : String)
  | join (task : String) (bound : Nat)

inductive Outcome where
  | nothing
  | deadline (d : Option Nat)
  | truth (b : Bool)
  | hung
  /-- The step does not fit the session. -/
  | refused
  | joined (took : Nat)

/-- What a step has led to, and which of the named scopes have ended once it has settled. -/
structure Report where
  outcome : Outcome
  took : Nat
  ended : List (String × Bool)

structure World where
  now : Nat
  scopes : ScopeTree

/-- A wait for the end of a scope, by somebody who holds on to it or not. -/
structure Wait where
  scope : Scope
  holds : Bool

def machine : Machine where
  World := World
  Task := Wait
  Result := Unit
  now w := w.now
  setNow t w := { w with now := t }
  ready w wait := w.scopes.heard w.now wait.scope
  alarm _ wait := wait.scope.alarm
  run w wait :=
    if w.scopes.heard w.now wait.scope then
      (if wait.holds then { w with scopes := w.scopes.drop wait.scope } else w, .answered ())
    else (w, .waiting wait)

structure Session where
  loop : EventLoop machine
  names : Table Scope

namespace Session

def fresh : Session := ⟨{ world := ⟨0, {}⟩ }, {}⟩

def scopes (s : Session) : ScopeTree := s.loop.world.scopes

def withScopes (s : Session) (t : ScopeTree) : Session :=
  { s with loop := { s.loop with world := { s.loop.world with scopes := t } } }

/-- The scope that a maker makes, in the tree that then holds it. -/
def make? (s : Session) : Maker → Option (ScopeTree × Scope)
  | .background => some s.scopes.root
  | .withTimeout span => some (s.scopes.within s.loop.now .background span)
  | .timeout of span => (s.names.get? of).map fun c => s.scopes.within s.loop.now c span
  | .child of => (s.names.get? of).map s.scopes.child
  | .clone of => (s.names.get? of).map fun c => (s.scopes.clone c, c)

/-- Lets go of the scope under a name, if there is one. -/
def letGo (s : Session) (name : String) : Session :=
  match s.names.get? name with
  | none => s
  | some c => { s.withScopes (s.scopes.drop c) with names := s.names.remove name }

def await (s : Session) (bound : Nat) (f : EventLoop.Foreground machine) : Session × Outcome :=
  match s.loop.await (Time.ring s.loop.now bound) f with
  | (loop, none) => ({ s with loop := loop }, .hung)
  | (loop, some (.result ())) => ({ s with loop := loop }, .nothing)
  | (loop, some (.joined f)) => ({ s with loop := loop }, .joined f.took)

/-- What a step does, up to its outcome. -/
def perform (s : Session) : Step → Session × Outcome
  | .make id m =>
    match s.make? m with
    | none => (s, .refused)
    | some (t, c) =>
      let s := (s.withScopes t).letGo id
      ({ s with names := s.names.put id c }, .deadline c.deadline)
  | .sleep span => ({ s with loop := s.loop.sleep span }, .nothing)
  | .peek task =>
    match s.loop.names.get? task with
    | none => (s, .refused)
    | some number => (s, .truth (s.loop.finished? number).isSome)
  | .join task bound =>
    match s.loop.names.get? task with
    | none => (s, .refused)
    | some number =>
      { s with loop := { s.loop with names := s.loop.names.remove task } }.await bound
        (.join number)
  | .drop of => ifNamed of fun _ => (s.letGo of, .nothing)
  | .cancel of => ifNamed of fun c => (s.withScopes (s.scopes.cancelScope c), .nothing)
  | .isDone of => ifNamed of fun c => (s, .truth (s.scopes.ended s.loop.now c))
  | .deadline of => ifNamed of fun c => (s, .deadline c.deadline)
  | .done of bound => ifNamed of fun c => s.await bound (.call ⟨c, false⟩)
  | .spawnDone of task => ifNamed of fun c =>
    let s := s.withScopes (s.scopes.clone c)
    ({ s with loop := s.loop.spawnAs task ⟨c, true⟩ }, .nothing)
where
  ifNamed (name : String) (f : Scope → Session × Outcome) : Session × Outcome :=
    match s.names.get? name with
    | none => (s, .refused)
    | some c => f c

/-- A step and its report. A step that could not be read is refused. -/
def step (s : Session) (t : Option Step) : Session × Report :=
  let started := s.loop.now
  let (s, outcome) := t.elim (s, .refused) s.perform
  let took := s.loop.now - started
  let s := { s with loop := s.loop.settle }
  (s, ⟨outcome, took, s.names.rows.map fun (name, c) => (name, s.scopes.ended s.loop.now c)⟩)

/-- Runs the steps, one report for each. -/
def run (s : Session) : List (Option Step) → List Report
  | [] => []
  | t :: ts => let (s, report) := s.step t; report :: run s ts

end Session

end CacheBridge.ScopeSession
