import CacheBridge.EventLoop
import CacheBridge.Stack

/-!
Sessions with a stack: calls at any of its levels, in the foreground or as tasks, under scopes that
the session makes and cancels, on a clock of its own.
-/

namespace CacheBridge.StackSession

/-- What is asked of a level. -/
inductive Body where
  | get (key : Key)
  | set (w : Write)
  | add (w : Write)
  | delete (key : Key)
  | close
  | setMulti (items : List Write)
  | setWithTtl (w : Write)
  | addWithTtl (w : Write)
  | setMultiWithTtl (items : List Write)
  | closeAsync (runtime : Bool)
  | waitForClose (timeout : Nat)

/-- The request for a level of a generation, and the surface that it must be asked for first. -/
def Body.request? (scope : Scope) : (g : Generation) → Body → Option (Request g × Option Surface)
  | .modern, .get key => some (.get scope key, none)
  | .modern, .set w => some (.set scope w, none)
  | .modern, .add w => some (.add scope w, none)
  | .modern, .delete key => some (.delete scope key, none)
  | .modern, .close => some (.close scope, none)
  | .modern, .setMulti items => some (.setMulti scope items, some .multi)
  | .legacy, .get key => some (.get key, none)
  | .legacy, .set w => some (.set w.key w.value, none)
  | .legacy, .add w => some (.add w.key w.value, none)
  | .legacy, .delete key => some (.delete key, none)
  | .legacy, .closeAsync _ => some (.closeAsync, none)
  | .legacy, .waitForClose timeout => some (.waitForClose timeout, none)
  | .legacy, .setWithTtl w => some (.setWithTtl w, some .ttl)
  | .legacy, .addWithTtl w => some (.addWithTtl w, some .ttl)
  | .legacy, .setMultiWithTtl items => some (.setMultiWithTtl items, some .ttl)
  | .legacy, .setMulti items => some (.setMulti (items.map fun w => (w.key, w.value)), some .multi)
  | _, _ => none

/-- Whether background work can be started from where the call is made. -/
def Body.runtime : Body → Bool
  | .closeAsync runtime => runtime
  | _ => true

/-- A call at a level, the top if none is named, under a scope of the session. -/
structure Call where
  level : Option Nat
  scope : Option String
  body : Body

inductive Step where
  | call (c : Call) (bound : Nat)
  | spawn (id : String) (c : Call)
  | peek (id : String)
  | join (id : String) (bound : Nat)
  | scope (id : String) (parent : Option String) (timeout : Option Nat)
  | cancel (scope : String)
  | sleep (span : Nat)
  /-- Moves the clock that entries expire by. -/
  | age (span : Nat)
  | counts
  | inspect (level : Option Nat)

/-- What a call has given. -/
inductive Result where
  | answer (g : Generation) (a : Answer g)
  | noSurface (s : Surface)

inductive Outcome where
  | done
  | result (r : Result)
  | hung
  /-- The step does not fit the session. -/
  | refused
  | truth (b : Bool)
  | joined (r : Result) (took : Nat)
  | counts (cs : List Counter)
  | inspection (i : Inspection)

/-- What a step has led to: its outcome, the time it took, the phases after it, and the events up
to the point where nothing could go on without time passing. -/
structure Report where
  outcome : Outcome
  took : Nat
  phases : List Phase
  events : List Event

/-! ## Calls as tasks -/

structure World (σ : Type) where
  env : Env
  state : σ
  /-- The events since the step began. -/
  events : List Event

inductive Task (σ : Type) where
  /-- A call that has not been started. -/
  | fresh (tier : Tier σ) (request : Request tier.generation) (surface : Option Surface)
      (runtime : Bool)
  | running (tier : Tier σ) (call : tier.Call)
  | job (j : Job σ)

variable {σ : Type}

/-- Puts a step of a call into effect. -/
def World.apply (w : World σ) (tier : Tier σ) (t : Turn σ tier.Call (Answer tier.generation)) :
    World σ × Progress (Task σ) Result :=
  ({ w with state := t.state, events := w.events ++ t.events },
    match t.progress with
    | .waiting call => .waiting (.running tier call)
    | .answered a => .answered (.answer tier.generation a))

/-- Starts a call. A surface that it needs is asked for first. -/
def World.start (w : World σ) (tier : Tier σ) (request : Request tier.generation)
    (surface : Option Surface) (runtime : Bool) : World σ × Progress (Task σ) Result :=
  let go (w : World σ) :=
    w.apply tier (tier.level.start request { w.env with runtime := runtime } w.state)
  match surface with
  | none => go w
  | some s =>
    let w := { w with events := w.events ++ tier.level.asking s w.env }
    if tier.level.offers s then go w else (w, .answered (.noSurface s))

def machine (σ : Type) : Machine where
  World := World σ
  Task := Task σ
  Result := Result
  now w := w.env.now
  setNow t w := { w with env := { w.env with now := t } }
  ready w
    | .fresh _ _ _ _ => true
    | .running tier call => tier.level.ready call w.env w.state
    | .job j => j.ready w.env w.state
  alarm w
    | .fresh _ _ _ _ => none
    | .running tier call => tier.level.alarm call
    | .job j => j.alarm w.state
  run w
    | .fresh tier request surface runtime => w.start tier request surface runtime
    | .running tier call => w.apply tier (tier.level.resume call w.env w.state)
    | .job j =>
      let (s, events) := j.run w.env w.state
      ({ w with state := s, events := w.events ++ events }, .waiting (.job j))

/-! ## Sessions -/

structure Session (st : Stack) where
  loop : EventLoop (machine st.State)
  scopes : Table Scope
  counts : List Counter

def counted : Event → Option Counter
  | .counted c => some c
  | _ => none

namespace Session

variable {st : Stack}

/-- A session that has just begun, its levels' background work waiting. -/
def begin (env : Env) (st : Stack) : Session st where
  loop := st.jobs.foldl (fun l j => (l.spawn (Task.job j)).1) { world := ⟨env, st.state, []⟩ }
  scopes := {}
  counts := []

/-- The task that makes a call, if the call fits its level. -/
def task? (s : Session st) (c : Call) : Option (Task st.State) :=
  match st.tier? c.level, c.scope.elim (some .background) s.scopes.get? with
  | some tier, some scope =>
    match c.body.request? scope tier.generation with
    | some (request, surface) => some (.fresh tier request surface c.body.runtime)
    | none => none
  | _, _ => none

def withEnv (s : Session st) (env : Env) : Session st :=
  { s with loop := { s.loop with world := { s.loop.world with env := env } } }

/-- Waits for the foreground, and tells what it has heard. -/
def await (s : Session st) (bound : Nat) (f : EventLoop.Foreground (machine st.State)) :
    Session st × Outcome :=
  match s.loop.await (Time.ring s.loop.now bound) f with
  | (loop, none) => ({ s with loop := loop }, .hung)
  | (loop, some (.result r)) => ({ s with loop := loop }, .result r)
  | (loop, some (.joined f)) => ({ s with loop := loop }, .joined f.result f.took)

/-- Makes a scope: on its own, with a timeout, or derived from another. -/
def makeScope (s : Session st) (id : String) (parent : Option String) (timeout : Option Nat) :
    Session st × Outcome :=
  let env := s.loop.world.env
  let keep (made : ScopeTree × Scope) : Session st × Outcome :=
    ({ s.withEnv { env with scopes := made.1 } with scopes := s.scopes.put id made.2 }, .done)
  match parent.elim (some .background) s.scopes.get?, timeout with
  | none, _ => (s, .refused)
  | some scope, none => keep (env.scopes.child scope)
  | some scope, some span => keep (env.scopes.within env.now scope span)

/-- What a step does, up to its outcome. -/
def perform (s : Session st) : Step → Session st × Outcome
  | .call c bound =>
    match s.task? c with
    | none => (s, .refused)
    | some task => s.await bound (.call task)
  | .spawn id c =>
    match s.task? c with
    | none => (s, .refused)
    | some task => ({ s with loop := s.loop.spawnAs id task }, .done)
  | .peek id =>
    match s.loop.names.get? id with
    | none => (s, .refused)
    | some number => (s, .truth (s.loop.finished? number).isSome)
  | .join id bound =>
    match s.loop.names.get? id with
    | none => (s, .refused)
    | some number =>
      { s with loop := { s.loop with names := s.loop.names.remove id } }.await bound (.join number)
  | .scope id parent timeout => s.makeScope id parent timeout
  | .cancel name =>
    match s.scopes.get? name with
    | none => (s, .refused)
    | some scope =>
      let env := s.loop.world.env
      (s.withEnv { env with scopes := env.scopes.cancelScope scope }, .done)
  | .sleep span => ({ s with loop := s.loop.sleep span }, .done)
  | .age span =>
    let env := s.loop.world.env
    (s.withEnv { env with wall := env.wall + span }, .done)
  | .counts => (s, .counts s.counts)
  | .inspect level =>
    match (st.tier? level).bind (·.inspect? s.loop.world.state) with
    | none => (s, .refused)
    | some i => (s, .inspection i)

/-- A step and its report. The phases are taken before the background goes on. A step that could not
be read is refused. -/
def step (s : Session st) (t : Option Step) : Session st × Report :=
  let started := s.loop.now
  let (s, outcome) := t.elim (s, .refused) s.perform
  let took := s.loop.now - started
  let phases := st.phases s.loop.world.state
  let loop := s.loop.settle
  let events := loop.world.events
  ({ s with
      loop := { loop with world := { loop.world with events := [] } }
      counts := s.counts ++ events.filterMap counted },
    ⟨outcome, took, phases, events⟩)

/-- Runs the steps, one report for each. -/
def run (s : Session st) : List (Option Step) → List Report
  | [] => []
  | t :: ts => let (s, report) := s.step t; report :: run s ts

end Session

/-- A clock that has just started. -/
def freshEnv : Env where
  now := 0
  wall := 0
  scopes := {}

/-- Builds a stack and runs a session with it: the events of the building, and the reports. -/
def run? (bottom : Stack.Bottom) (layers : List Stack.Layer) (steps : List (Option Step)) :
    Option (List Event × List Report) :=
  match Stack.build? freshEnv bottom layers with
  | none => none
  | some (st, events) => some (events, (Session.begin freshEnv st).run steps)

end CacheBridge.StackSession
