import CacheBridge.Proofs.Tower

/-!
Calls made one after the other at a level, and the ledger of what reached it. A visit is a call with
the environments that it is looked at in: it is started in the first and goes on in the others for
as long as it waits; if it still waits after the last it is given up. The level itself may do
anything at a step. A recorded level is the level with a ledger at its side, and behaves as it does.
-/

namespace CacheBridge

/-- What a call has come to, if it has come to an answer. -/
def Progress.answer? {φ : Type u} {α : Type v} : Progress φ α → Option α
  | .waiting _ => none
  | .answered a => some a

structure Visit (g : Generation) where
  request : Request g
  env : Env
  later : List Env := []

/-- What a number of visits have come to: the state after them, what each was told, if anything,
and the events they left. -/
structure Service (g : Generation) (σ : Type) where
  state : σ
  answers : List (Option (Answer g))
  events : List Event

namespace Level

variable {g : Generation} {σ φ : Type} (l : Level g σ φ)

/-- Goes on with a call in one environment after the other, as long as it waits. -/
def goOn : List Env → Turn σ φ (Answer g) → Turn σ φ (Answer g)
  | [], turn => turn
  | env :: later, turn =>
    match turn.progress with
    | .waiting call => goOn later ((l.resume call env turn.state).after turn.events)
    | .answered _ => turn

def serve (v : Visit g) (s : σ) : Turn σ φ (Answer g) :=
  l.goOn v.later (l.start v.request v.env s)

def serveAll : List (Visit g) → σ → Service g σ
  | [], s => ⟨s, [], []⟩
  | v :: vs, s =>
    let turn := l.serve v s
    let rest := serveAll vs turn.state
    ⟨rest.state, turn.progress.answer? :: rest.answers, turn.events ++ rest.events⟩

theorem goOn_answered (later : List Env) {turn : Turn σ φ (Answer g)} {a : Answer g}
    (h : turn.progress = .answered a) : l.goOn later turn = turn := by
  cases later with
  | nil => rfl
  | cons env later => simp [goOn, h]

theorem goOn_waiting (env : Env) (later : List Env) {turn : Turn σ φ (Answer g)} {call : φ}
    (h : turn.progress = .waiting call) :
    l.goOn (env :: later) turn =
      l.goOn later ((l.resume call env turn.state).after turn.events) := by
  simp [goOn, h]

theorem goOn_after (later : List Env) (es : List Event) (turn : Turn σ φ (Answer g)) :
    l.goOn later (turn.after es) = (l.goOn later turn).after es := by
  induction later generalizing turn es with
  | nil => rfl
  | cons env later ih =>
    obtain ⟨s, p, fs⟩ := turn
    cases p with
    | waiting call =>
      rw [l.goOn_waiting env later rfl, l.goOn_waiting env later rfl, ← ih, ← Turn.after_append]
      rfl
    | answered a => rw [l.goOn_answered (env :: later) rfl, l.goOn_answered (env :: later) rfl]

/-- Where each step of one level is seen as a step of another, so is all of a call. -/
theorem goOn_map {h : Generation} {τ ψ : Type} (upper : Level h τ ψ) (wrap : σ → τ) (keep : φ → ψ)
    (say : Answer g → Answer h)
    (hresume : ∀ call env s,
      upper.resume (keep call) env (wrap s) = (l.resume call env s).map wrap keep say)
    (later : List Env) (turn : Turn σ φ (Answer g)) :
    upper.goOn later (turn.map wrap keep say) = (l.goOn later turn).map wrap keep say := by
  induction later generalizing turn with
  | nil => rfl
  | cons env later ih =>
    obtain ⟨s, p, es⟩ := turn
    cases p with
    | waiting call =>
      rw [l.goOn_waiting env later rfl, upper.goOn_waiting env later rfl, ← ih, Turn.map_after]
      exact congrArg (fun turn => upper.goOn later (turn.after es)) (hresume call env s)
    | answered a => rw [l.goOn_answered (env :: later) rfl, upper.goOn_answered (env :: later) rfl]

/-- A cache that answers at once does so whatever comes later. -/
theorem serve_immediate (offers : Surface → Bool)
    (handle : Request g → Env → σ → σ × Answer g × List Event) (v : Visit g) (s : σ) :
    (immediate offers handle).serve v s =
      let done := handle v.request v.env s
      ⟨done.1, .answered done.2.1, done.2.2⟩ :=
  (immediate offers handle).goOn_answered v.later rfl

end Level

namespace Tower

variable {b g : Generation} {σ φ : Type}

theorem goOn_lift (below : Level b σ φ) (t : Tower b g) (s : t.State σ φ) (later : List Env)
    (turn : Turn σ φ (Answer b)) :
    (t.level below).goOn later (t.lift s turn) = t.lift s (below.goOn later turn) := by
  refine below.goOn_map (t.level below) (t.replace s) t.relayed (Answer.as g) ?_ later turn
  intro call env x
  rw [resume_relayed, bottom_replace, lift_replace]
  rfl

end Tower

/-! ## The ledger -/

/-- What has reached a level, and what it has answered to what. -/
structure Ledger (g : Generation) where
  received : List (Request g) := []
  answered : List (Request g × Answer g) := []
  deriving Inhabited

namespace Ledger

variable {g : Generation} {σ φ : Type}

def receive (led : Ledger g) (r : Request g) : Ledger g :=
  { led with received := led.received ++ [r] }

/-- Notes what a call made with `r` has come to. -/
def settle (led : Ledger g) (r : Request g) : Progress φ (Answer g) → Ledger g
  | .waiting _ => led
  | .answered a => { led with answered := led.answered ++ [(r, a)] }

/-- A step of a call made with `r`, noted. -/
def note (led : Ledger g) (r : Request g) (turn : Turn σ φ (Answer g)) :
    Turn (Ledger g × σ) (Request g × φ) (Answer g) :=
  turn.map (fun s => (led.settle r turn.progress, s)) (fun call => (r, call)) id

@[simp] theorem received_settle (led : Ledger g) (r : Request g) (p : Progress φ (Answer g)) :
    (led.settle r p).received = led.received := by
  cases p <;> rfl

end Ledger

/-- The level with a ledger; each unanswered call remembers its request. -/
def Level.recorded {g : Generation} {σ φ : Type} (l : Level g σ φ) :
    Level g (Ledger g × σ) (Request g × φ) where
  offers := l.offers
  asking := l.asking
  start r env s := (s.1.receive r).note r (l.start r env s.2)
  resume call env s := s.1.note call.1 (l.resume call.2 env s.2)
  ready call env s := l.ready call.2 env s.2
  alarm call := l.alarm call.2

namespace Level

variable {g : Generation} {σ φ : Type} (l : Level g σ φ)

/-- The ledger left out of a step. -/
def unrecorded (turn : Turn (Ledger g × σ) (Request g × φ) (Answer g)) : Turn σ φ (Answer g) :=
  turn.map Prod.snd Prod.snd id

@[simp] theorem unrecorded_note (led : Ledger g) (r : Request g) (turn : Turn σ φ (Answer g)) :
    unrecorded (led.note r turn) = turn := by
  obtain ⟨s, p, es⟩ := turn
  cases p <;> rfl

theorem unrecorded_after (turn : Turn (Ledger g × σ) (Request g × φ) (Answer g))
    (es : List Event) : unrecorded (turn.after es) = (unrecorded turn).after es := rfl

theorem answer?_unrecorded (turn : Turn (Ledger g × σ) (Request g × φ) (Answer g)) :
    (unrecorded turn).progress.answer? = turn.progress.answer? := by
  obtain ⟨s, p, es⟩ := turn
  cases p <;> rfl

/-- Going on with a recorded call adds nothing to what was received. -/
theorem goOn_recorded (later : List Env)
    (turn : Turn (Ledger g × σ) (Request g × φ) (Answer g)) :
    unrecorded (l.recorded.goOn later turn) = l.goOn later (unrecorded turn) ∧
      (l.recorded.goOn later turn).state.1.received = turn.state.1.received := by
  induction later generalizing turn with
  | nil => exact ⟨rfl, rfl⟩
  | cons env later ih =>
    obtain ⟨s, p, es⟩ := turn
    cases p with
    | waiting call =>
      rw [l.recorded.goOn_waiting env later rfl]
      obtain ⟨h, hr⟩ := ih ((l.recorded.resume call env s).after es)
      refine ⟨?_, hr.trans (Ledger.received_settle _ _ _)⟩
      rw [h, unrecorded_after]
      exact congrArg (fun turn => l.goOn later (Turn.after es turn)) (unrecorded_note _ _ _)
    | answered a =>
      rw [l.recorded.goOn_answered (env :: later) rfl]
      exact ⟨(l.goOn_answered (env :: later) rfl).symm, rfl⟩

theorem serve_recorded (v : Visit g) (led : Ledger g) (s : σ) :
    unrecorded (l.recorded.serve v (led, s)) = l.serve v s ∧
      (l.recorded.serve v (led, s)).state.1.received = led.received ++ [v.request] := by
  obtain ⟨h, hr⟩ := l.goOn_recorded v.later (l.recorded.start v.request v.env (led, s))
  exact ⟨h.trans (congrArg (l.goOn v.later) (unrecorded_note _ _ _)),
    hr.trans (Ledger.received_settle _ _ _)⟩

/-- A recorded level behaves as the level does, and its ledger has received what was asked. -/
theorem serveAll_recorded (vs : List (Visit g)) (led : Ledger g) (s : σ) :
    (l.recorded.serveAll vs (led, s)).state.2 = (l.serveAll vs s).state ∧
    (l.recorded.serveAll vs (led, s)).answers = (l.serveAll vs s).answers ∧
    (l.recorded.serveAll vs (led, s)).events = (l.serveAll vs s).events ∧
    (l.recorded.serveAll vs (led, s)).state.1.received =
      led.received ++ vs.map Visit.request := by
  induction vs generalizing led s with
  | nil => simp [serveAll]
  | cons v vs ih =>
    obtain ⟨hturn, hreceived⟩ := l.serve_recorded v led s
    have hstate : (l.recorded.serve v (led, s)).state.2 = (l.serve v s).state :=
      congrArg Turn.state hturn
    have hanswer : (l.recorded.serve v (led, s)).progress.answer? =
        (l.serve v s).progress.answer? := by
      rw [← hturn, answer?_unrecorded]
    have hevents : (l.recorded.serve v (led, s)).events = (l.serve v s).events :=
      congrArg Turn.events hturn
    obtain ⟨h₁, h₂, h₃, h₄⟩ := ih (l.recorded.serve v (led, s)).state.1 (l.serve v s).state
    rw [← hstate] at h₁ h₂ h₃ h₄
    simp only [serveAll, List.map_cons]
    refine ⟨h₁.trans ?_, ?_, ?_, ?_⟩
    · rw [hstate]
    · rw [h₂, hanswer, hstate]
    · rw [h₃, hevents, hstate]
    · rw [h₄, hreceived, List.append_assoc, List.singleton_append]

end Level

end CacheBridge
