import CacheBridge.Level

/-!
The bridge to legacy: a modern cache as a legacy one. Every call into the cache below runs under a
scope that never ends. TTLs are part of the modern contract, so the TTL surface is always there. A
batch goes to the cache below in one request if that has the batch surface, and is otherwise
replayed one write after the other, up to the first that fails. A close is signalled once; the
cache below is then closed in the background, and whoever waits sees the phase move. A bridge that
`counts` keeps a tally of replayed batches and of waits that ran out.
-/

namespace CacheBridge.ToLegacy

/-- How far the background close has come. -/
inductive Closer (φ : Type) where
  | idle
  | requested
  | running (call : φ)
  | finished

/-- What the bridge keeps for itself. -/
structure Own (φ : Type) where
  phase : Phase
  closer : Closer φ

/-- A bridge that nobody has asked to close. -/
def Own.fresh {φ : Type} : Own φ := ⟨.active, .idle⟩

/-- An unanswered call. -/
inductive Call (φ : Type) where
  /-- Handed on to the cache below. -/
  | relayed (call : φ)
  /-- A batch that is being replayed: the write under way, and the writes to come. -/
  | replaying (call : φ) (rest : List Write)
  /-- Waiting for the close. -/
  | waiting (timeout : Nat) (wait : ClosedWait)

variable {σ φ : Type} (below : Level .modern σ φ) (counts : Bool)

abbrev State (σ φ : Type) := Own φ × σ

abbrev Step (σ φ : Type) := Turn (State σ φ) (Call φ) (Answer .legacy)

/-- Hands a step of the cache below on to the caller. -/
def relay (own : Own φ) (t : Turn σ φ (Answer .modern)) : Step σ φ :=
  t.map (fun s => (own, s)) .relayed (Answer.as .legacy)

/-- What to do once a write of a batch has got somewhere: `next` goes on with the writes to come. -/
def settle (own : Own φ) (rest : List Write) (next : σ → Step σ φ)
    (t : Turn σ φ (Answer .modern)) : Step σ φ :=
  match t.progress with
  | .waiting call => ⟨(own, t.state), .waiting (.replaying call rest), t.events⟩
  | .answered (.ok _) => (next t.state).after t.events
  | .answered (.error e) => ⟨(own, t.state), .answered (.error (e.as .legacy)), t.events⟩

/-- Replays the writes of a batch in order. -/
def replay (own : Own φ) : List Write → Env → σ → Step σ φ
  | [], _, s => .answer (own, s) Answer.done
  | w :: rest, env, s =>
    settle own rest (replay own rest env) (below.start (.set .background w) env s)

def tally (c : Counter) : List Event := if counts then [.counted c] else []

/-- Writes a batch. -/
def writeBatch (items : List Write) (env : Env) (own : Own φ) (s : σ) : Step σ φ :=
  if below.offers .multi then relay own (below.start (.setMulti .background items) env s)
  else (replay below own items env s).after (tally counts .batchReplayed)

/-- Signals a close. Where no background work can be started the cache below stays open. -/
def closeAsync (env : Env) (own : Own φ) (s : σ) : Step σ φ :=
  match own.phase.beginClose with
  | (false, _) => .answer (own, s) Answer.done
  | (true, phase) =>
    if env.runtime then .answer (⟨phase, .requested⟩, s) Answer.done
    else ⟨({ own with phase := phase }, s), .answered Answer.done, [.notice .closeWithoutRuntime]⟩

/-- Tells a waiter what the look at the phase has given. -/
def tell (timeout : Nat) (own : Own φ) (s : σ) : Progress ClosedWait Bool → Step σ φ
  | .waiting wait => .wait (own, s) (.waiting timeout wait)
  | .answered true => .answer (own, s) Answer.done
  | .answered false =>
    ⟨(own, s), .answered (.error .timeout),
      tally counts .closeTimedOut ++ [.notice (.closeOverdue timeout own.phase)]⟩

def start (r : LegacyRequest) (env : Env) (state : State σ φ) : Step σ φ :=
  let (own, s) := state
  let pass (r : ModernRequest) : Step σ φ := relay own (below.start r env s)
  match r with
  | .get key => pass (.get .background key)
  | .set key value => pass (.set .background (.plain key value))
  | .add key value => pass (.add .background (.plain key value))
  | .delete key => pass (.delete .background key)
  | .setWithTtl w => pass (.set .background w)
  | .addWithTtl w => pass (.add .background w)
  | .setMulti items =>
    writeBatch below counts (items.map fun (key, value) => .plain key value) env own s
  | .setMultiWithTtl items => writeBatch below counts items env own s
  | .closeAsync => closeAsync env own s
  | .waitForClose timeout => tell counts timeout own s (ClosedWait.start own.phase env.now timeout)

def resume (call : Call φ) (env : Env) (state : State σ φ) : Step σ φ :=
  let (own, s) := state
  match call with
  | .relayed call => relay own (below.resume call env s)
  | .replaying call rest => settle own rest (replay below own rest env) (below.resume call env s)
  | .waiting timeout wait => tell counts timeout own s (wait.look own.phase env.now)

def ready (call : Call φ) (env : Env) (state : State σ φ) : Bool :=
  match call with
  | .relayed call | .replaying call _ => below.ready call env state.2
  | .waiting _ wait => wait.ready state.1.phase env.now

def alarm : Call φ → Option Nat
  | .relayed call | .replaying call _ => below.alarm call
  | .waiting _ wait => wait.alarm

/-- The modern cache `below` as a legacy one. -/
def level : Level .legacy (State σ φ) (Call φ) where
  offers _ := true
  asking _ _ := []
  start := start below counts
  resume := resume below counts
  ready := ready below
  alarm := alarm below

/-- What wrapping a cache leaves behind: it is asked once for its batch surface. -/
def wrapping (env : Env) : List Event :=
  below.asking .multi env ++ [.notice (.modernWrapped (below.offers .multi))]

/-! ## The background close -/

/-- What the end of the background close does to the bridge. -/
def conclude (own : Own φ) (t : Turn σ φ (Answer .modern)) : State σ φ × List Event :=
  match t.progress with
  | .waiting call => (({ own with closer := .running call }, t.state), t.events)
  | .answered (.ok _) => ((⟨own.phase.complete, .finished⟩, t.state), t.events)
  | .answered (.error e) =>
    (({ own with closer := .finished }, t.state), t.events ++ [.notice (.closeFailed e)])

def runCloser (env : Env) (state : State σ φ) : State σ φ × List Event :=
  let (own, s) := state
  match own.closer with
  | .idle | .finished => (state, [])
  | .requested => conclude own (below.start (.close .background) env s)
  | .running call => conclude own (below.resume call env s)

/-- The background close of the cache below. -/
def closing : Job (State σ φ) where
  ready env state := match state.1.closer with
    | .idle | .finished => false
    | .requested => true
    | .running call => below.ready call env state.2
  alarm state := match state.1.closer with
    | .running call => below.alarm call
    | _ => none
  run := runCloser below

/-- The bridge as it is shown. -/
def report (multi : Bool) (phase : Phase) : String :=
  Text.record "ModernToLegacy"
    [("capabilities", Notice.modernSurfaces multi), ("shutdown", phase.name)]

end CacheBridge.ToLegacy
