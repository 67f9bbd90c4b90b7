import CacheBridge.Level

/-!
The bridge to modern: a legacy cache as a modern one. The cache below cannot see a scope, so the
scope of a data call goes no further. A TTL that the cache below has no surface for is dropped, with
a notice; a batch that it has no surface for fails as not implemented.

A close is signalled to the cache below once, and then polled: each poll is a wait of the length of
the poll interval, and the next one begins when the interval since the last is over, even if the
cache below answered sooner. The close ends with the first answer that is not a timeout, or when
its scope ends. An answer from below wins over a scope that has ended, and a scope that has ended
wins over an interval that is over.
-/

namespace CacheBridge.ToModern

/-- An unanswered call. -/
inductive Call (φ : Type) where
  /-- Handed on to the cache below. -/
  | relayed (call : φ)
  /-- A close that polls the cache below since `started`. -/
  | polling (scope : Scope) (started : Nat) (call : φ)
  /-- A close that waits for the next poll. -/
  | pausing (scope : Scope) (ring : Nat)

variable {σ φ : Type} (below : Level .legacy σ φ) (poll : Nat)

abbrev State (σ : Type) := Phase × σ

abbrev Step (σ φ : Type) := Turn (State σ) (Call φ) (Answer .modern)

/-- Hands a step of the cache below on to the caller. -/
def relay (phase : Phase) (t : Turn σ φ (Answer .legacy)) : Step σ φ :=
  t.map (fun s => (phase, s)) .relayed (Answer.as .modern)

/-- How a write reaches the cache below: with its TTL, if it has one and there is a surface for it,
and plainly otherwise. The events tell of a TTL that was dropped. -/
def route (timed : Write → LegacyRequest) (plain : Key → Bytes → LegacyRequest) (w : Write) :
    LegacyRequest × List Event :=
  match w.ttl with
  | none => (plain w.key w.value, [])
  | some ttl =>
    if below.offers .ttl then (timed w, [])
    else (plain w.key w.value, [.notice (.ttlDropped ttl w.key)])

/-- How a batch reaches the cache below, if there is a surface for it. -/
def routeBatch (items : List Write) : Option (LegacyRequest × List Event) :=
  let plain : LegacyRequest := .setMulti (items.map fun w => (w.key, w.value))
  if !below.offers .multi then none
  else if !items.any (·.ttl.isSome) then some (plain, [])
  else if below.offers .ttl then some (.setMultiWithTtl items, [])
  else some (plain, [.notice (.batchTtlsDropped items.length)])

/-- Gives a close up. -/
def giveUp (phase : Phase) (s : σ) : Step σ φ :=
  ⟨(phase, s), .answered (.error .timeout), [.notice .closeAbandoned]⟩

/-- Waits for the next poll, which is due one interval after the last began. -/
def pause (scope : Scope) (started : Nat) (env : Env) (phase : Phase) (s : σ) : Step σ φ :=
  if env.ended scope then giveUp phase s
  else .wait (phase, s) (.pausing scope (env.ring (poll - (env.now - started))))

/-- What an answer to a poll does to the close. `again` goes on after a timeout. -/
def judge (scope : Scope) (started : Nat) (env : Env) (phase : Phase) (again : σ → Step σ φ)
    (t : Turn σ φ (Answer .legacy)) : Step σ φ :=
  match t.progress with
  | .answered (.ok _) => ⟨(phase.complete, t.state), .answered Answer.done, t.events⟩
  | .answered (.error .timeout) => (again t.state).after t.events
  | .answered (.error e) => ⟨(phase, t.state), .answered (.error (e.as .modern)), t.events⟩
  | .waiting call =>
    if env.ended scope then (giveUp phase t.state).after t.events
    else ⟨(phase, t.state), .waiting (.polling scope started call), t.events⟩

/-- Begins a poll. -/
def beginPoll (scope : Scope) (env : Env) (phase : Phase) (s : σ) : Step σ φ :=
  judge scope env.now env phase (pause poll scope env.now env phase)
    (below.start (.waitForClose poll) env s)

/-- After a poll that has timed out: the next one begins at once if its interval is over. -/
def pollAgain (scope : Scope) (started : Nat) (env : Env) (phase : Phase) (s : σ) : Step σ φ :=
  if env.ended scope then giveUp phase s
  else if env.ring (poll - (env.now - started)) ≤ env.now then
    beginPoll below poll scope env phase s
  else pause poll scope started env phase s

/-- Closes: at once if the cache is closed; the first to ask signals the cache below. -/
def close (scope : Scope) (env : Env) (phase : Phase) (s : σ) : Step σ φ :=
  if phase = .closed then .answer (phase, s) Answer.done
  else match phase.beginClose with
    | (false, phase) => beginPoll below poll scope env phase s
    | (true, phase) =>
      let signal := below.start .closeAsync env s
      (beginPoll below poll scope env phase signal.state).after signal.events

def start (r : ModernRequest) (env : Env) (state : State σ) : Step σ φ :=
  let (phase, s) := state
  let pass (r : LegacyRequest) (events : List Event) : Step σ φ :=
    (relay phase (below.start r env s)).after events
  match r with
  | .get _ key => pass (.get key) []
  | .set _ w => let (r, events) := route below .setWithTtl .set w; pass r events
  | .add _ w => let (r, events) := route below .addWithTtl .add w; pass r events
  | .delete _ key => pass (.delete key) []
  | .close scope => close below poll scope env phase s
  | .setMulti _ items =>
    match routeBatch below items with
    | none => .answer state (.error .notImplemented)
    | some (r, events) => pass r events

def resume (call : Call φ) (env : Env) (state : State σ) : Step σ φ :=
  let (phase, s) := state
  match call with
  | .relayed call => relay phase (below.resume call env s)
  | .polling scope started call =>
    judge scope started env phase (pollAgain below poll scope started env phase)
      (below.resume call env s)
  | .pausing scope ring =>
    if env.ended scope then giveUp phase s
    else if ring ≤ env.now then beginPoll below poll scope env phase s
    else .wait state call

def ready (call : Call φ) (env : Env) (state : State σ) : Bool :=
  match call with
  | .relayed call => below.ready call env state.2
  | .polling scope _ call => below.ready call env state.2 || env.ended scope
  | .pausing scope ring => ring ≤ env.now || env.ended scope

/-- The earlier of two alarms. -/
def alarm : Call φ → Option Nat
  | .relayed call => below.alarm call
  | .polling scope _ call => ScopeTree.earlier (below.alarm call) scope.alarm
  | .pausing scope ring => ScopeTree.earlier (some ring) scope.alarm

/-- The legacy cache `below` as a modern one, whose close is polled at the interval `poll`. -/
def level : Level .modern (State σ) (Call φ) where
  offers s := s == .multi
  asking _ _ := []
  start := start below poll
  resume := resume below poll
  ready := ready below
  alarm := alarm below

/-- What wrapping a cache leaves behind: it is asked once for each of its surfaces. -/
def wrapping (env : Env) : List Event :=
  below.asking .ttl env ++ below.asking .multi env ++
    [.notice (.legacyWrapped (below.offers .ttl) (below.offers .multi))]

/-- The bridge as it is shown. -/
def report (ttl multi : Bool) (phase : Phase) (poll : Nat) : String :=
  Text.record "LegacyToModern"
    [("capabilities", Notice.legacySurfaces ttl multi), ("shutdown", phase.name),
     ("poll_interval", Text.span poll)]

end CacheBridge.ToModern
