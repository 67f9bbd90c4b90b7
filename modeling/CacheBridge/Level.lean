import CacheBridge.Contract
import CacheBridge.Notice

/-!
Levels: what a cache is to its callers. A level of generation `g` works on a state of type `σ` and
keeps each call that has not been answered as a value of type `φ`. Starting and resuming a call are
plain functions of what the call can see (`Env`) and of the state; they give the new state, what
the call has come to, and the events it left. A call that is given up is simply not resumed.

A level says of a call whether resuming it now would get it anywhere (`ready`) and at which instant
it wants to be looked at again (`alarm`), so that whoever runs the calls can be written once.
-/

namespace CacheBridge

/-- What a call can see of the world around it. -/
structure Env where
  now : Nat
  /-- The clock that entries expire by. -/
  wall : Nat
  scopes : ScopeTree
  /-- Whether background work can be started from here. -/
  runtime : Bool := true

namespace Env

def ended (env : Env) (s : Scope) : Bool := env.scopes.ended env.now s

/-- When a timer of length `span` that is set now rings. -/
def ring (env : Env) (span : Nat) : Nat := Time.ring env.now span

end Env

/-- What the bridges count. -/
inductive Counter where
  | batchReplayed
  | closeTimedOut
  deriving DecidableEq, Inhabited

def Counter.name : Counter → String
  | batchReplayed => "cache.set_multi.fallback"
  | closeTimedOut => "cache.close.timeout"

/-- What a spy has seen reach its level. -/
inductive Sight where
  | modern (r : ModernRequest)
  | legacy (r : LegacyRequest)
  | probe (s : Surface)
  deriving DecidableEq, Inhabited

def Sight.ofRequest : {g : Generation} → Request g → Sight
  | .modern, r => .modern r
  | .legacy, r => .legacy r

/-- A sight with the level and the instant it was seen at. Of the scope that came with it, `ended`
tells whether it had ended. -/
structure Sighting where
  level : Nat
  now : Nat
  sight : Sight
  ended : Bool

/-- What a call leaves behind for others to read. -/
inductive Event where
  | notice (n : Notice)
  | counted (c : Counter)
  | seen (s : Sighting)

/-- A step of a call: the state after it, what the call has come to, and the events it left. -/
structure Turn (σ φ α : Type) where
  state : σ
  progress : Progress φ α
  events : List Event := []

namespace Turn

variable {σ τ φ ψ α β : Type}

def answer (s : σ) (a : α) : Turn σ φ α := ⟨s, .answered a, []⟩

def wait (s : σ) (call : φ) : Turn σ φ α := ⟨s, .waiting call, []⟩

/-- Events that came before the step. -/
def after (events : List Event) (t : Turn σ φ α) : Turn σ φ α :=
  { t with events := events ++ t.events }

/-- Seen from outside: the state is put into `wrap`, the call into `keep`, the answer into `say`. -/
def map (wrap : σ → τ) (keep : φ → ψ) (say : α → β) (t : Turn σ φ α) : Turn τ ψ β where
  state := wrap t.state
  progress := match t.progress with
    | .waiting call => .waiting (keep call)
    | .answered a => .answered (say a)
  events := t.events

theorem after_append (es fs : List Event) (t : Turn σ φ α) :
    t.after (es ++ fs) = (t.after fs).after es := by
  simp [after]

theorem map_after (wrap : σ → τ) (keep : φ → ψ) (say : α → β) (es : List Event) (t : Turn σ φ α) :
    (t.after es).map wrap keep say = (t.map wrap keep say).after es := rfl

end Turn

/-- A cache of generation `g` on states `σ`, with unanswered calls `φ`. -/
structure Level (g : Generation) (σ φ : Type) where
  /-- Which optional surfaces the cache has. -/
  offers : Surface → Bool
  /-- What is left behind by asking for a surface. -/
  asking : Surface → Env → List Event
  start : Request g → Env → σ → Turn σ φ (Answer g)
  resume : φ → Env → σ → Turn σ φ (Answer g)
  ready : φ → Env → σ → Bool
  alarm : φ → Option Nat

/-- The level as part of something larger, whose other part it leaves alone. -/
def Level.beneath {g : Generation} {σ φ : Type} (α : Type) (l : Level g σ φ) :
    Level g (α × σ) φ where
  offers := l.offers
  asking := l.asking
  start r env s := (l.start r env s.2).map (fun t => (s.1, t)) id id
  resume call env s := (l.resume call env s.2).map (fun t => (s.1, t)) id id
  ready call env s := l.ready call env s.2
  alarm := l.alarm

/-- The level with its optional surfaces left out. -/
def Level.bare {g : Generation} {σ φ : Type} (below : Level g σ φ) : Level g σ φ :=
  { below with offers := fun _ => false, asking := fun _ _ => [] }

/-- Work that a level does in the background, on a state `σ` that keeps how far it has come. -/
structure Job (σ : Type) where
  ready : Env → σ → Bool
  alarm : σ → Option Nat
  run : Env → σ → σ × List Event

def Job.beneath {σ : Type} (α : Type) (j : Job σ) : Job (α × σ) where
  ready env s := j.ready env s.2
  alarm s := j.alarm s.2
  run env s := let (t, events) := j.run env s.2; ((s.1, t), events)

/-- The calls of a cache that answers everything at once. -/
abbrev NoCall := Empty

/-- A cache that answers every request at once. -/
def Level.immediate {g : Generation} {σ : Type} (offers : Surface → Bool)
    (handle : Request g → Env → σ → σ × Answer g × List Event) : Level g σ NoCall where
  offers := offers
  asking _ _ := []
  start r env s := let (s, a, events) := handle r env s; ⟨s, .answered a, events⟩
  resume call := nomatch call
  ready call := nomatch call
  alarm call := nomatch call

end CacheBridge
