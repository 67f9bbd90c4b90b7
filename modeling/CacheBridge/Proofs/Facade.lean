import CacheBridge.Proofs.ClosingWave
import CacheBridge.Session.Stacks

/-!
The legacy contract as its callers see it, of a cache that nobody else uses. There are entries,
which are looked up by the wall clock; a first close that empties the cache and shuts it, while
later ones do nothing; and waits, which are over at once when the cache is shut, and otherwise take
all of their time. A tower that stands, open or shut, does just that when it is called at its top.
-/

namespace CacheBridge

open StackSession

/-- What the callers of a legacy cache can tell of it. -/
structure Facade where
  now : Nat := 0
  wall : Nat := 0
  slots : Table Slot := {}
  shut : Bool := false

namespace Facade

def env (c : Facade) : Env := { now := c.now, wall := c.wall, scopes := {} }

def told (a : Answer .legacy) : Outcome := .result (.answer .legacy a)

def close (c : Facade) : Facade := if c.shut then c else { c with slots := {}, shut := true }

/-- A wait for the close that is given up at `limit`. -/
def wait (c : Facade) (timeout limit : Nat) : Facade × Outcome :=
  let ring := Time.ring c.now timeout
  if c.shut then (c, told Answer.done)
  else if ring ≤ limit then ({ c with now := ring }, told (.error .timeout))
  else ({ c with now := limit }, .hung)

/-- A call that is given up at `limit`. -/
def ask (c : Facade) (r : LegacyRequest) (limit : Nat) : Facade × Outcome :=
  match deed? (g := .legacy) r, r with
  | some d, _ =>
    let (slots, a) := Engine.done .unbounded d c.env c.slots
    ({ c with slots := slots }, told (a.as .legacy))
  | none, .waitForClose timeout => c.wait timeout limit
  | none, _ => (c.close, told Answer.done)

/-- A step of a session. Steps other than calls and waits are refused. -/
def perform (c : Facade) : Step → Facade × Outcome
  | .call call bound =>
    match call.body.request? .background .legacy with
    | none => (c, .refused)
    | some (r, _) => c.ask r (Time.ring c.now bound)
  | .sleep span => ({ c with now := Time.ring c.now span }, .done)
  | .age span => ({ c with wall := c.wall + span }, .done)
  | _ => (c, .refused)

/-- The outcome of each step, and the time it took. -/
def run (c : Facade) : List Step → List (Outcome × Nat)
  | [] => []
  | step :: steps =>
    let (next, outcome) := c.perform step
    (outcome, next.now - c.now) :: next.run steps

end Facade

namespace Tower

variable {v : Vault} {b : Generation} {t : Tower b .legacy} {s : t.Built v}

/-! ## Towers that stand, as their callers see them -/

theorem Stands.closeAsync_open (hs : t.Stands false s) (env : Env) (hr : env.runtime = true) :
    ∃ s' es, (t.cache v).start .closeAsync env s = ⟨s', .answered Answer.done, es⟩ ∧
      Wave (v := v) env.now env.wall t s' := by
  cases t with
  | ground =>
    obtain ⟨slots, phase⟩ := s
    cases (hs : phase = .active)
    exact ⟨_, _, rfl, rfl, .refl _⟩
  | toLegacy counts t =>
    obtain ⟨hstart, hwave⟩ := closeAsync_wave counts hs hr
    exact ⟨_, _, hstart, hwave⟩

theorem Stands.closeAsync_shut (hs : t.Stands true s) (env : Env) :
    (t.cache v).start .closeAsync env s = .answer s Answer.done := by
  cases t with
  | ground =>
    obtain ⟨slots, phase⟩ := s
    cases (hs : phase = .closed)
    rfl
  | toLegacy counts t =>
    obtain ⟨own, s⟩ := s
    cases (hs.1 : own = _)
    rfl

theorem Stands.wait_shut (hs : t.Stands true s) (env : Env) (timeout : Nat) :
    (t.cache v).start (.waitForClose timeout) env s = .answer s Answer.done := by
  cases t with
  | ground =>
    obtain ⟨slots, phase⟩ := s
    cases (hs : phase = .closed)
    rfl
  | toLegacy counts t =>
    obtain ⟨own, s⟩ := s
    cases (hs.1 : own = _)
    rfl

theorem look_active (now ring : Nat) :
    (ClosedWait.till ring).look .active now =
      if ring ≤ now then .answered false else .waiting (.till ring) := by
  simp [ClosedWait.look, ClosedWait.expired]

/-- A wait at an open tower that is over at once has timed out. -/
theorem Stands.wait_now (hs : t.Stands false s) (env : Env) {timeout : Nat}
    (hring : Time.ring env.now timeout ≤ env.now) :
    ∃ es, (t.cache v).start (.waitForClose timeout) env s =
      ⟨s, .answered (.error .timeout), es⟩ := by
  have hlook := look_active env.now (Time.ring env.now timeout)
  rw [if_pos hring] at hlook
  cases t with
  | ground =>
    obtain ⟨slots, phase⟩ := s
    cases (hs : phase = .active)
    exact ⟨_, congrArg (LazyStore.tell ⟨slots, .active⟩) hlook⟩
  | toLegacy counts t =>
    obtain ⟨own, s⟩ := s
    cases (hs.1 : own = .fresh)
    exact ⟨_, congrArg (ToLegacy.tell counts timeout .fresh s) hlook⟩

/-- Any other wait there times out when it rings. -/
theorem Stands.wait_later (hs : t.Stands false s) (env : Env) {timeout ring : Nat}
    (hring : Time.ring env.now timeout = ring) (hlate : env.now < ring) :
    ∃ call, (t.cache v).start (.waitForClose timeout) env s = .wait s call ∧
      (t.cache v).alarm call = some ring ∧
      (∀ later, (t.cache v).ready call later s = decide (ring ≤ later.now)) ∧
      ∀ later, ring ≤ later.now →
        ∃ es, (t.cache v).resume call later s = ⟨s, .answered (.error .timeout), es⟩ := by
  subst hring
  have hwaits := look_active env.now (Time.ring env.now timeout)
  rw [if_neg (Nat.not_le.mpr hlate)] at hwaits
  have hrings (later : Env) (h : Time.ring env.now timeout ≤ later.now) :
      (ClosedWait.till (Time.ring env.now timeout)).look .active later.now = .answered false :=
    (look_active later.now _).trans (if_pos h)
  have hready (later : Env) :
      (ClosedWait.till (Time.ring env.now timeout)).ready .active later.now =
        decide (Time.ring env.now timeout ≤ later.now) := by
    simp [ClosedWait.ready, ClosedWait.expired]
  cases t with
  | ground =>
    obtain ⟨slots, phase⟩ := s
    cases (hs : phase = .active)
    exact ⟨_, congrArg (LazyStore.tell ⟨slots, .active⟩) hwaits, rfl, hready,
      fun later h => ⟨_, congrArg (LazyStore.tell ⟨slots, .active⟩) (hrings later h)⟩⟩
  | toLegacy counts t =>
    obtain ⟨own, s⟩ := s
    cases (hs.1 : own = .fresh)
    exact ⟨.waiting timeout (.till (Time.ring env.now timeout)),
      congrArg (ToLegacy.tell counts timeout .fresh s) hwaits, rfl, hready,
      fun later h => ⟨_, congrArg (ToLegacy.tell counts timeout .fresh s) (hrings later h)⟩⟩

end Tower

end CacheBridge
