import CacheBridge.Level

/-!
Spies: levels that show what reaches them and pass it on. A spy can hold each call of a method back
for a while, and then answer some of them with a failure of its own instead of passing them on. It
can also deny a surface that the cache below has.
-/

namespace CacheBridge.Spy

/-- The methods that a spy can hold back. -/
inductive Method where
  | get
  | set
  | add
  | delete
  | close
  | waitForClose
  | setWithTtl
  | addWithTtl
  | setMulti
  | setMultiWithTtl
  deriving DecidableEq, Inhabited

namespace Method

/-- The method of a modern request. -/
def ofModern : ModernRequest → Method
  | .get _ _ => get
  | .set _ _ => set
  | .add _ _ => add
  | .delete _ _ => delete
  | .close _ => close
  | .setMulti _ _ => setMulti

/-- The method of a legacy request. A close signal cannot be held back. -/
def ofLegacy? : LegacyRequest → Option Method
  | .get _ => some get
  | .set _ _ => some set
  | .add _ _ => some add
  | .delete _ => some delete
  | .closeAsync => none
  | .waitForClose _ => some waitForClose
  | .setWithTtl _ => some setWithTtl
  | .addWithTtl _ => some addWithTtl
  | .setMulti _ => some setMulti
  | .setMultiWithTtl _ => some setMultiWithTtl

def of? : {g : Generation} → Request g → Option Method
  | .modern, r => some (ofModern r)
  | .legacy, r => ofLegacy? r

end Method

/-- The scope that comes with a request. -/
def scopeOf : {g : Generation} → Request g → Scope
  | .modern, .get s _ | .modern, .set s _ | .modern, .add s _ | .modern, .delete s _
  | .modern, .close s | .modern, .setMulti s _ => s
  | .legacy, _ => .background

/-- The longest that a spy can hold a call back: thirty years. -/
def longest : Nat := 30 * 365 * 86400 * Time.second

/-- How a spy is to behave. -/
structure Script where
  /-- The number of its level. -/
  level : Nat
  hideTtl : Bool := false
  hideMulti : Bool := false
  delays : List (Method × Nat) := []

/-- For how long a call of a method is held back. -/
def Script.delay? (script : Script) (m : Method) : Option Nat :=
  (script.delays.lookup m).map (min longest)

def Script.hides (script : Script) : Surface → Bool
  | .ttl => script.hideTtl
  | .multi => script.hideMulti

/-- The failures that a spy has still to answer with, method by method; a missing one lets the call
pass. -/
abbrev Faults (g : Generation) := List (Method × List (Option (Failure g)))

/-- Takes the next failure of a method. -/
def take {g : Generation} (m : Method) : Faults g → Option (Failure g) × Faults g
  | [] => (none, [])
  | (n, queue) :: rest =>
    if n = m then (queue.head?.join, (n, queue.tail) :: rest)
    else let (e, rest) := take m rest; (e, (n, queue) :: rest)

/-- An unanswered call. -/
inductive Call (g : Generation) (φ : Type) where
  | held (m : Method) (r : Request g) (ring : Nat)
  | passed (call : φ)

variable {g : Generation} {σ φ : Type} (script : Script) (below : Level g σ φ)

abbrev State (g : Generation) (σ : Type) := Faults g × σ

abbrev Step (g : Generation) (σ φ : Type) := Turn (State g σ) (Call g φ) (Answer g)

/-- Hands a step of the cache below on to the caller. -/
def relay (faults : Faults g) (t : Turn σ φ (Answer g)) : Step g σ φ :=
  t.map (fun s => (faults, s)) .passed id

/-- A call that is held back no longer: it fails, or goes on to the cache below. -/
def letGo (m : Method) (r : Request g) (env : Env) (state : State g σ) : Step g σ φ :=
  let (faults, s) := state
  match take m faults with
  | (some e, faults) => .answer (faults, s) (.error e)
  | (none, faults) => relay faults (below.start r env s)

def sighting (env : Env) (sight : Sight) (scope : Scope) : Event :=
  .seen ⟨script.level, env.now, sight, env.ended scope⟩

def start (r : Request g) (env : Env) (state : State g σ) : Step g σ φ :=
  Turn.after [sighting script env (.ofRequest r) (scopeOf r)] <|
    match Method.of? r with
    | none => relay state.1 (below.start r env state.2)
    | some m =>
      match script.delay? m with
      | none => letGo below m r env state
      | some delay =>
        if env.ring delay ≤ env.now then letGo below m r env state
        else .wait state (.held m r (env.ring delay))

def resume (call : Call g φ) (env : Env) (state : State g σ) : Step g σ φ :=
  match call with
  | .held m r ring => if ring ≤ env.now then letGo below m r env state else .wait state call
  | .passed call => relay state.1 (below.resume call env state.2)

/-- The level `below`, watched. -/
def level : Level g (State g σ) (Call g φ) where
  offers surface := !script.hides surface && below.offers surface
  asking surface env :=
    sighting script env (.probe surface) .background ::
      if script.hides surface then [] else below.asking surface env
  start := start script below
  resume := resume below
  ready call env state := match call with
    | .held _ _ ring => ring ≤ env.now
    | .passed call => below.ready call env state.2
  alarm
    | .held _ _ ring => some ring
    | .passed call => below.alarm call

end CacheBridge.Spy
