import CacheBridge.Stack

/-!
Towers: bridges alone, one on top of the other, over any cache at the bottom. The type of a tower
makes its bridges alternate. Its level is put together from the levels of the bridges, just as a
stack puts them together, and its state is the state of the bottom with what each bridge keeps for
itself around it. A call that every bridge merely hands on is a call of the bottom, `lift`ed.
-/

namespace CacheBridge

/-- Bridges over a bottom of generation `b`; seen from above, a cache of generation `g`. -/
inductive Tower (b : Generation) : Generation → Type where
  | ground : Tower b b
  | toLegacy (counts : Bool) (t : Tower b .modern) : Tower b .legacy
  | toModern (poll : Nat) (t : Tower b .legacy) : Tower b .modern

namespace Tower

variable {b g : Generation} {σ φ : Type}

/-- The number of bridges. -/
def depth : {g : Generation} → Tower b g → Nat
  | _, .ground => 0
  | _, .toLegacy _ t => t.depth + 1
  | _, .toModern _ t => t.depth + 1

/-- The unanswered calls of a tower over a bottom with unanswered calls `φ`. -/
@[reducible] def Call (φ : Type) : {g : Generation} → Tower b g → Type
  | _, .ground => φ
  | _, .toLegacy _ t => ToLegacy.Call (t.Call φ)
  | _, .toModern _ t => ToModern.Call (t.Call φ)

/-- The states of a tower over a bottom with states `σ`. -/
@[reducible] def State (σ φ : Type) : {g : Generation} → Tower b g → Type
  | _, .ground => σ
  | _, .toLegacy _ t => ToLegacy.State (t.State σ φ) (t.Call φ)
  | _, .toModern _ t => ToModern.State (t.State σ φ)

/-- The tower as a cache. -/
def level (below : Level b σ φ) : {g : Generation} → (t : Tower b g) →
    Level g (t.State σ φ) (t.Call φ)
  | _, .ground => below
  | _, .toLegacy counts t => ToLegacy.level (t.level below) counts
  | _, .toModern poll t => ToModern.level (t.level below) poll

/-- The background work of a tower over a bottom that has background work of its own. -/
def jobs (below : Level b σ φ) (base : List (Job σ)) : {g : Generation} → (t : Tower b g) →
    List (Job (t.State σ φ))
  | _, .ground => base
  | _, .toLegacy _ t =>
    (t.jobs below base).map (·.beneath (ToLegacy.Own (t.Call φ))) ++
      [ToLegacy.closing (t.level below)]
  | _, .toModern _ t => (t.jobs below base).map (·.beneath Phase)

/-- A tower that nobody has asked to close. -/
def fresh (s : σ) : {g : Generation} → (t : Tower b g) → t.State σ φ
  | _, .ground => s
  | _, .toLegacy _ t => (ToLegacy.Own.fresh, t.fresh s)
  | _, .toModern _ t => (Phase.active, t.fresh s)

/-- The phases of the bridges, the lowest first. -/
def phases : {g : Generation} → (t : Tower b g) → t.State σ φ → List Phase
  | _, .ground, _ => []
  | _, .toLegacy _ t, s => t.phases s.2 ++ [s.1.phase]
  | _, .toModern _ t, s => t.phases s.2 ++ [s.1]

/-! ## The bottom of a tower -/

/-- The state of the bottom. -/
def bottom : {g : Generation} → (t : Tower b g) → t.State σ φ → σ
  | _, .ground, s => s
  | _, .toLegacy _ t, s => t.bottom s.2
  | _, .toModern _ t, s => t.bottom s.2

/-- The tower with another state at its bottom. -/
def replace : {g : Generation} → (t : Tower b g) → t.State σ φ → σ → t.State σ φ
  | _, .ground, _, x => x
  | _, .toLegacy _ t, s, x => (s.1, t.replace s.2 x)
  | _, .toModern _ t, s, x => (s.1, t.replace s.2 x)

/-- A call of the bottom that every bridge hands on. -/
def relayed : {g : Generation} → (t : Tower b g) → φ → t.Call φ
  | _, .ground, call => call
  | _, .toLegacy _ t, call => ToLegacy.Call.relayed (t.relayed call)
  | _, .toModern _ t, call => ToModern.Call.relayed (t.relayed call)

/-- A step of the bottom as a step of the tower. -/
def lift (t : Tower b g) (s : t.State σ φ) (turn : Turn σ φ (Answer b)) :
    Turn (t.State σ φ) (t.Call φ) (Answer g) :=
  turn.map (t.replace s) t.relayed (Answer.as g)

@[simp] theorem bottom_fresh (x : σ) (t : Tower b g) : t.bottom (t.fresh x : t.State σ φ) = x := by
  induction t with
  | ground => rfl
  | toLegacy _ t ih => exact ih
  | toModern _ t ih => exact ih

@[simp] theorem bottom_replace (t : Tower b g) (s : t.State σ φ) (x : σ) :
    t.bottom (t.replace s x) = x := by
  induction t with
  | ground => rfl
  | toLegacy _ t ih => exact ih s.2
  | toModern _ t ih => exact ih s.2

@[simp] theorem replace_bottom (t : Tower b g) (s : t.State σ φ) :
    t.replace s (t.bottom s) = s := by
  induction t with
  | ground => rfl
  | toLegacy _ t ih => exact congrArg (Prod.mk s.1) (ih s.2)
  | toModern _ t ih => exact congrArg (Prod.mk s.1) (ih s.2)

@[simp] theorem replace_replace (t : Tower b g) (s : t.State σ φ) (x y : σ) :
    t.replace (t.replace s x) y = t.replace s y := by
  induction t with
  | ground => rfl
  | toLegacy _ t ih => exact congrArg (Prod.mk s.1) (ih s.2)
  | toModern _ t ih => exact congrArg (Prod.mk s.1) (ih s.2)

@[simp] theorem phases_replace (t : Tower b g) (s : t.State σ φ) (x : σ) :
    t.phases (t.replace s x) = t.phases s := by
  induction t with
  | ground => rfl
  | toLegacy _ t ih => exact congrArg (· ++ [s.1.phase]) (ih s.2)
  | toModern _ t ih => exact congrArg (· ++ [s.1]) (ih s.2)

/-! ## Calls that are handed on -/

theorem lift_ground (s : σ) (turn : Turn σ φ (Answer b)) :
    (ground : Tower b b).lift (σ := σ) s turn = turn := by
  obtain ⟨x, p, es⟩ := turn
  cases p with
  | waiting call => rfl
  | answered a => simp only [lift, Turn.map, Answer.as_self]; rfl

theorem lift_toLegacy (counts : Bool) (t : Tower b .modern)
    (s : (toLegacy counts t).State σ φ) (turn : Turn σ φ (Answer b)) :
    (toLegacy counts t).lift s turn = ToLegacy.relay s.1 (t.lift s.2 turn) := by
  obtain ⟨x, p, es⟩ := turn
  cases p with
  | waiting call => rfl
  | answered a => simp only [lift, Turn.map, ToLegacy.relay, Answer.as_as]; rfl

theorem lift_toModern (poll : Nat) (t : Tower b .legacy)
    (s : (toModern poll t).State σ φ) (turn : Turn σ φ (Answer b)) :
    (toModern poll t).lift s turn = ToModern.relay s.1 (t.lift s.2 turn) := by
  obtain ⟨x, p, es⟩ := turn
  cases p with
  | waiting call => rfl
  | answered a => simp only [lift, Turn.map, ToModern.relay, Answer.as_as]; rfl

@[simp] theorem lift_replace (t : Tower b g) (s : t.State σ φ) (x : σ)
    (turn : Turn σ φ (Answer b)) : t.lift (t.replace s x) turn = t.lift s turn := by
  simp [lift, Turn.map]

@[simp] theorem bottom_lift (t : Tower b g) (s : t.State σ φ) (turn : Turn σ φ (Answer b)) :
    t.bottom (t.lift s turn).state = turn.state :=
  bottom_replace t s turn.state

/-- Going on with a call that every bridge hands on is going on with it at the bottom. -/
theorem resume_relayed (below : Level b σ φ) (t : Tower b g) (call : φ) (env : Env)
    (s : t.State σ φ) :
    (t.level below).resume (t.relayed call) env s =
      t.lift s (below.resume call env (t.bottom s)) := by
  induction t with
  | ground => exact (lift_ground s _).symm
  | toLegacy counts t ih =>
    rw [lift_toLegacy]
    exact congrArg (ToLegacy.relay s.1) (ih s.2)
  | toModern poll t ih =>
    rw [lift_toModern]
    exact congrArg (ToModern.relay s.1) (ih s.2)

/-! ## Surfaces -/

@[simp] theorem offers_toLegacy (below : Level b σ φ) (counts : Bool) (t : Tower b .modern)
    (surface : Surface) : ((toLegacy counts t).level below).offers surface = true := rfl

@[simp] theorem offers_toModern (below : Level b σ φ) (poll : Nat) (t : Tower b .legacy)
    (surface : Surface) :
    ((toModern poll t).level below).offers surface = (surface == .multi) := rfl

/-- A bottom with all the surfaces of its generation makes every tower on it such a cache. -/
theorem offers_of_bottom {below : Level b σ φ}
    (hbelow : ∀ surface, b = .legacy ∨ surface = .multi → below.offers surface = true)
    (t : Tower b g) {surface : Surface} (h : g = .legacy ∨ surface = .multi) :
    (t.level below).offers surface = true := by
  cases t with
  | ground => exact hbelow surface h
  | toLegacy => rfl
  | toModern => simpa using h

end Tower

end CacheBridge
