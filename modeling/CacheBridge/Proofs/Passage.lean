import CacheBridge.Proofs.Service

/-!
What a request becomes on its way down a tower. A bridge hands most requests on as one request of
the other generation; `passed?` is that request, with the events that the bridge leaves, and it
says nothing of a close, a wait for it, or a batch that is replayed. Over a whole tower, what is
asked at the top is one call at the bottom, with a step of the bottom for each step of the tower.
-/

namespace CacheBridge

namespace ToLegacy

variable {σ φ : Type} (below : Level .modern σ φ)

/-- A batch as one request below, if there is a surface for it. -/
def passedBatch? (items : List Write) : Option ModernRequest :=
  if below.offers .multi then some (.setMulti .background items) else none

/-- The one request that a request becomes below, if it becomes one. -/
def passed? : LegacyRequest → Option ModernRequest
  | .get key => some (.get .background key)
  | .set key value => some (.set .background (.plain key value))
  | .add key value => some (.add .background (.plain key value))
  | .delete key => some (.delete .background key)
  | .setWithTtl w => some (.set .background w)
  | .addWithTtl w => some (.add .background w)
  | .setMulti items => passedBatch? below (items.map fun (key, value) => .plain key value)
  | .setMultiWithTtl items => passedBatch? below items
  | .closeAsync | .waitForClose _ => none

theorem writeBatch_passed {counts : Bool} {items : List Write} {r : ModernRequest} {env : Env}
    {own : Own φ} {s : σ} (h : passedBatch? below items = some r) :
    writeBatch below counts items env own s = relay own (below.start r env s) := by
  unfold passedBatch? at h
  split at h
  · next hm =>
    cases h
    simp [writeBatch, hm]
  · cases h

theorem start_passed (counts : Bool) {r : LegacyRequest} {r' : ModernRequest} {env : Env}
    {state : State σ φ} (h : passed? below r = some r') :
    start below counts r env state = relay state.1 (below.start r' env state.2) := by
  cases r with
  | get | set | add | delete | setWithTtl | addWithTtl =>
    cases h
    rfl
  | setMulti | setMultiWithTtl => exact writeBatch_passed below h
  | closeAsync | waitForClose => cases h

theorem goOn_relay (counts : Bool) (later : List Env) (own : Own φ)
    (turn : Turn σ φ (Answer .modern)) :
    (level below counts).goOn later (relay own turn) = relay own (below.goOn later turn) :=
  below.goOn_map (level below counts) (fun s => (own, s)) .relayed (Answer.as .legacy)
    (fun _ _ _ => rfl) later turn

end ToLegacy

namespace ToModern

variable {σ φ : Type} (below : Level .legacy σ φ)

/-- The one request that a request becomes below, if it becomes one. -/
def passed? : ModernRequest → Option (LegacyRequest × List Event)
  | .get _ key => some (.get key, [])
  | .set _ w => some (route below .setWithTtl .set w)
  | .add _ w => some (route below .addWithTtl .add w)
  | .delete _ key => some (.delete key, [])
  | .setMulti _ items => routeBatch below items
  | .close _ => none

theorem start_passed (poll : Nat) {r : ModernRequest} {r' : LegacyRequest} {es : List Event}
    {env : Env} {state : State σ} (h : passed? below r = some (r', es)) :
    start below poll r env state = (relay state.1 (below.start r' env state.2)).after es := by
  cases r with
  | get | delete =>
    cases h
    rfl
  | set _ w | add _ w =>
    simp only [passed?, Option.some.injEq] at h
    simp only [start, h]
  | setMulti _ items =>
    simp only [passed?] at h
    simp only [start, h]
  | close => cases h

theorem goOn_relay (poll : Nat) (later : List Env) (phase : Phase)
    (turn : Turn σ φ (Answer .legacy)) :
    (level below poll).goOn later (relay phase turn) = relay phase (below.goOn later turn) :=
  below.goOn_map (level below poll) (fun s => (phase, s)) .relayed (Answer.as .modern)
    (fun _ _ _ => rfl) later turn

end ToModern

namespace Tower

variable {b g : Generation} {σ φ : Type}

/-- The one request that a request becomes at the bottom, if it becomes one, and the events that
the bridges leave. -/
def passed? (below : Level b σ φ) : {g : Generation} → (t : Tower b g) → Request g →
    Option (Request b × List Event)
  | _, .ground, r => some (r, [])
  | _, .toLegacy _ t, r => (ToLegacy.passed? (t.level below) r).bind (t.passed? below)
  | _, .toModern _ t, r =>
    (ToModern.passed? (t.level below) r).bind fun (r', es) =>
      (t.passed? below r').map fun (r'', fs) => (r'', es ++ fs)

theorem start_passed (below : Level b σ φ) (t : Tower b g) {r : Request g} {r' : Request b}
    {es : List Event} {env : Env} {s : t.State σ φ} (h : t.passed? below r = some (r', es)) :
    (t.level below).start r env s =
      (t.lift s (below.start r' env (t.bottom s))).after es := by
  induction t generalizing es with
  | ground =>
    cases h
    rw [lift_ground]
    rfl
  | toLegacy counts t ih =>
    obtain ⟨q, hq, hr⟩ := Option.bind_eq_some_iff.mp h
    rw [lift_toLegacy]
    refine (ToLegacy.start_passed (t.level below) counts hq).trans ?_
    rw [ih hr]
    rfl
  | toModern poll t ih =>
    obtain ⟨⟨q, fs⟩, hq, hr⟩ := Option.bind_eq_some_iff.mp h
    obtain ⟨⟨r'', gs⟩, hdown, heq⟩ := Option.map_eq_some_iff.mp hr
    cases heq
    rw [lift_toModern, Turn.after_append]
    refine (ToModern.start_passed (t.level below) poll hq).trans ?_
    rw [ih hdown]
    rfl

/-- A visit whose request is passed on is a visit to the bottom. -/
theorem serve_passed (below : Level b σ φ) (t : Tower b g) {v : Visit g} {r : Request b}
    {es : List Event} (s : t.State σ φ) (h : t.passed? below v.request = some (r, es)) :
    (t.level below).serve v s =
      (t.lift s (below.serve ⟨r, v.env, v.later⟩ (t.bottom s))).after es := by
  unfold Level.serve
  rw [start_passed below t h, Level.goOn_after, goOn_lift]

theorem answer?_lift (t : Tower b g) (s : t.State σ φ) (turn : Turn σ φ (Answer b)) :
    (t.lift s turn).progress.answer? = turn.progress.answer?.map (Answer.as g) := by
  obtain ⟨x, p, es⟩ := turn
  cases p <;> rfl

/-- A visit to the top is the one call `r` to the bottom: that is all that the bottom receives, and
it does and says what it would do and say to that call alone. -/
def ServedAs (below : Level b σ φ) (t : Tower b g) (v : Visit g)
    (s : t.State (Ledger b × σ) (Request b × φ)) (r : Request b) : Prop :=
  let seen := (t.level below.recorded).serve v s
  let direct := below.serve ⟨r, v.env, v.later⟩ (t.bottom s).2
  (t.bottom seen.state).1.received = (t.bottom s).1.received ++ [r] ∧
  (t.bottom seen.state).2 = direct.state ∧
  seen.progress.answer? = direct.progress.answer?.map (Answer.as g)

theorem servedAs_of_passed (below : Level b σ φ) (t : Tower b g) {v : Visit g}
    (s : t.State (Ledger b × σ) (Request b × φ)) {r : Request b} {es : List Event}
    (h : t.passed? below.recorded v.request = some (r, es)) : t.ServedAs below v s r := by
  have hserve := serve_passed below.recorded t s h
  obtain ⟨hdirect, hreceived⟩ :=
    below.serve_recorded ⟨r, v.env, v.later⟩ (t.bottom s).1 (t.bottom s).2
  unfold ServedAs
  rw [hserve]
  refine ⟨?_, ?_, ?_⟩
  · exact (congrArg (fun x => x.1.received) (bottom_lift t s _)).trans hreceived
  · exact (congrArg Prod.snd (bottom_lift t s _)).trans (congrArg Turn.state hdirect)
  · rw [← hdirect, Level.answer?_unrecorded]
    exact answer?_lift t s _

end Tower

end CacheBridge
